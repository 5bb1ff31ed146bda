import LispContext.Context.Basic
import LispContext.Proofs.Scope.Refinement

/-!
# Outlines of chains

The outline of a chain forgets which nodes hold the chain, its frames and their bindings, and keeps
the keys and values themselves. Chains with one outline are updated alike, whatever the heap, proper
or not, so an update can be followed through a chain whose links were made anew.
-/
namespace LispContext

namespace Value

def outlineEntry : Value → Value
  | pair _ key value => pair 0 key value
  | v => v

def outlineFrame : Value → Value
  | pair _ entry rest => pair 0 entry.outlineEntry rest.outlineFrame
  | v => v

/-- A chain without the nodes of its links, frames and bindings. -/
def outline : Value → Value
  | pair _ frame outer => pair 0 frame.outlineFrame outer.outline
  | v => v

@[simp] theorem outline_pair (node : Nat) (frame outer : Value) :
    (pair node frame outer).outline = pair 0 frame.outlineFrame outer.outline := rfl

@[simp] theorem outlineFrame_pair (node : Nat) (entry rest : Value) :
    (pair node entry rest).outlineFrame = pair 0 entry.outlineEntry rest.outlineFrame := rfl

@[simp] theorem outlineEntry_pair (node : Nat) (key value : Value) :
    (pair node key value).outlineEntry = pair 0 key value := rfl

theorem forget_outlineEntry (v : Value) : v.outlineEntry.forget = v.forget := by
  cases v <;> rfl

theorem forget_outlineFrame (v : Value) : v.outlineFrame.forget = v.forget := by
  induction v with
  | nil => rfl
  | atom => rfl
  | pair node entry rest _ ih => simp [forget_outlineEntry, ih]

/-- An outline has the content of the chain. -/
theorem forget_outline (v : Value) : v.outline.forget = v.forget := by
  induction v with
  | nil => rfl
  | atom => rfl
  | pair node frame outer _ ih => simp [forget_outlineFrame, ih]

/-- An outline keeps what a frame binds. -/
theorem bindings_outlineFrame (v : Value) : v.outlineFrame.bindings = v.bindings := by
  induction v with
  | nil => rfl
  | atom => rfl
  | pair node entry rest _ ih =>
    cases entry <;> simp [outlineEntry, ih]

theorem isNil_outline (v : Value) : v.outline.isNil = v.isNil := by
  cases v <;> rfl

end Value

namespace Scope

/-- Whether a frame takes an update shows in the outline. -/
theorem takes_congr (name : Value) {frame frame' outer outer' : Value}
    (hf : frame.outlineFrame = frame'.outlineFrame) (ho : outer.outline = outer'.outline) :
    takes name frame outer = takes name frame' outer' := by
  rw [takes_eq, takes_eq, ← frame.bindings_outlineFrame, ← frame'.bindings_outlineFrame, hf,
    ← outer.isNil_outline, ← outer'.isNil_outline, ho]

/-- Updates of chains with one outline give chains with one outline, on whatever heaps. -/
theorem outline_setIn (name value chain chain' : Value) (heap heap' : Heap)
    (h : chain.outline = chain'.outline) :
    (setIn name value chain heap).1.outline = (setIn name value chain' heap').1.outline := by
  induction chain generalizing chain' with
  | nil =>
    cases chain' with
    | nil => rfl
    | atom => simp [Value.outline] at h
    | pair => simp [Value.outline] at h
  | atom node content =>
    cases chain' with
    | nil => simp [Value.outline] at h
    | atom node' content' => simpa [setIn, Value.outline] using h
    | pair => simp [Value.outline] at h
  | pair node frame outer _ ih =>
    cases chain' with
    | nil => simp [Value.outline] at h
    | atom => simp [Value.outline] at h
    | pair node' frame' outer' =>
      simp only [Value.outline_pair, Value.pair.injEq, true_and] at h
      obtain ⟨hf, ho⟩ := h
      have hc := takes_congr name hf ho
      cases ht : takes name frame outer with
      | true =>
        rw [setIn_pair_of_takes _ _ _ _ _ _ ht, setIn_pair_of_takes _ _ _ _ _ _ (hc ▸ ht)]
        simp [hf, ho]
      | false =>
        rw [setIn_pair_of_passes _ _ _ _ _ _ ht, setIn_pair_of_passes _ _ _ _ _ _ (hc ▸ ht)]
        simp [Heap.cons, hf, ih outer' ho]

theorem outline_set (s t : Scope) (name value : Value) (heap heap' : Heap)
    (h : s.chain.outline = t.chain.outline) :
    (s.set name value heap).1.chain.outline = (t.set name value heap').1.chain.outline := by
  rw [set_eq, set_eq]
  exact outline_setIn name value s.chain t.chain heap heap' h

/-- Popping a chain takes the first frame off its outline. -/
theorem outline_pop (s : Scope) {node : Nat} {frame outer : Value}
    (h : s.chain.outline = .pair node frame outer) : s.pop.chain.outline = outer := by
  obtain ⟨chain⟩ := s
  cases chain with
  | nil => cases h
  | atom => cases h
  | pair => exact (Value.pair.inj h).2.2

theorem ne_nil_of_outline (s t : Scope) (h : s.chain.outline = t.chain.outline)
    (hs : s.chain ≠ .nil) : t.chain ≠ .nil := by
  rw [ne_eq, ← Value.isNil_iff, ← Value.isNil_outline, ← h, Value.isNil_outline, Value.isNil_iff]
  exact hs

theorem set_ne_nil (s : Scope) (name value : Value) (heap : Heap) :
    (s.set name value heap).1.chain ≠ .nil := by
  have h := isPair_setIn name value s.chain heap
  rw [set_eq]
  intro hn
  rw [show (setIn name value s.chain heap).1 = .nil from hn] at h
  cases h

end Scope

namespace Setup

open Scope

/-- Updates in sequence, of chains with one outline. -/
theorem outline_setAll (updates : List (Value × Value)) (s t : Scope) (heap heap' : Heap)
    (h : s.chain.outline = t.chain.outline) :
    (setAll updates s heap).1.chain.outline = (setAll updates t heap').1.chain.outline := by
  induction updates generalizing s t heap heap' with
  | nil => exact h
  | cons entry updates ih => exact ih _ _ _ _ (outline_set s t entry.1 entry.2 heap heap' h)

theorem setAll_append (first later : List (Value × Value)) (s : Scope) (heap : Heap) :
    setAll (first ++ later) s heap =
      setAll later (setAll first s heap).1 (setAll first s heap).2 := by
  induction first generalizing s heap with
  | nil => rfl
  | cons entry first ih => exact ih _ _

theorem setAll_ne_nil (updates : List (Value × Value)) (s : Scope) (heap : Heap)
    (h : s.chain ≠ .nil) : (setAll updates s heap).1.chain ≠ .nil := by
  induction updates generalizing s heap with
  | nil => exact h
  | cons entry updates ih => exact ih _ _ (set_ne_nil s entry.1 entry.2 heap)

/-- Updates of names to which the first frame gives no value pass it: they reach the chain behind it
as if the frame were not there. -/
theorem outline_setAll_behind (updates : List (Value × Value)) (node : Nat) (frame chain : Value)
    (heap heap' : Heap) (hc : chain ≠ .nil)
    (hf : ∀ entry ∈ updates, frame.bindings.hasValue entry.1 = false) :
    (setAll updates ⟨.pair node frame chain⟩ heap).1.chain.outline =
      .pair 0 frame.outlineFrame (setAll updates ⟨chain⟩ heap').1.chain.outline := by
  induction updates generalizing node chain heap heap' with
  | nil => rfl
  | cons entry updates ih =>
    obtain ⟨name, value⟩ := entry
    obtain ⟨hn, hl⟩ := List.forall_mem_cons.mp hf
    have ht : takes name frame chain = false := by
      rw [takes_eq, hn, Bool.false_or, ← Bool.not_eq_true, Value.isNil_iff]
      exact hc
    have hs : (Scope.mk (.pair node frame chain)).set name value heap =
        (⟨((setIn name value chain heap).2.cons frame (setIn name value chain heap).1).1⟩,
          ((setIn name value chain heap).2.cons frame (setIn name value chain heap).1).2) := by
      rw [set_eq, setIn_pair_of_passes _ _ _ _ _ _ ht]
    have hne := set_ne_nil ⟨chain⟩ name value heap
    rw [set_eq] at hne
    have hd := outline_setIn name value chain chain heap heap' rfl
    simp only [setAll, hs]
    rw [Heap.cons, ih _ _ _ (set ⟨chain⟩ name value heap').2 hne hl,
      outline_setAll updates _ (set ⟨chain⟩ name value heap').1 _ _ (by rw [set_eq]; exact hd)]

end Setup

end LispContext
