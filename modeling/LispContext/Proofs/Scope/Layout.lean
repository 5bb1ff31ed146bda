import LispContext.Proofs.Scope.Growth

/-!
# Which nodes an updated chain is made of

An update links the frames that it passes in new cells, in front of a new cell for its target, and
everything behind the target stays where it is. So the chain after the update is known node by node:
which nodes are old, which are new, and how many new ones there are.
-/
namespace LispContext.Scope

/-- The layout of a chain after an update, with so many frames in front of the target. The binding,
the target frame and the cells of the chain have the next numbers of the heap, in the order in which
they are made: from the target on inwards. -/
structure Relinked (name value : Value) (s : Scope) (heap : Heap) (front : Nat) (t : Scope)
    (later : Heap) : Prop where
  /-- A frame in front of the target gives the name no value, and the chain goes on behind it. It is
  the same node as before, at the same place, in a new cell. -/
  passed : ∀ i < front, ∃ node frame outer outer',
    (popMany i s).chain = .pair node frame outer ∧ Value.assoc name frame = .nil ∧ outer ≠ .nil ∧
      (popMany i t).chain = .pair (heap.pairs + 2 + (front - i)) frame outer'
  /-- The target, where it is an old frame, gives the name a value, or the chain ends behind it. -/
  takes : ∀ node frame outer, (popMany front s).chain = .pair node frame outer →
    Value.assoc name frame ≠ .nil ∨ outer = .nil
  /-- The new binding stands in front of the old target, or of the empty list if there was no such
  frame. The chain behind the target is the same node as before. -/
  target : (popMany front t).chain =
    .pair (heap.pairs + 2)
      (.pair (heap.pairs + 1) (.pair heap.pairs name value)
        ((popMany front s).chain.head?.getD .nil))
      (popMany front s).pop.chain
  pairs : later.pairs = heap.pairs + (front + 3)
  atoms : later.atoms = heap.atoms

/-- A frame that does not take the update is passed by one more cell. -/
theorem Relinked.behind {name value outer : Value} {heap : Heap} {front : Nat} {t : Scope}
    {later : Heap} (h : Relinked name value ⟨outer⟩ heap front t later) (node : Nat)
    {frame : Value} (hf : Value.assoc name frame = .nil) (ho : outer ≠ .nil) :
    Relinked name value ⟨.pair node frame outer⟩ heap (front + 1)
      ⟨(later.cons frame t.chain).1⟩ (later.cons frame t.chain).2 := by
  constructor
  · intro i hi
    cases i with
    | zero =>
      have hn : later.pairs = heap.pairs + 2 + (front + 1 - 0) := by
        have := h.pairs
        omega
      exact ⟨node, frame, outer, t.chain, rfl, hf, ho, by simp [Heap.cons, hn]⟩
    | succ i =>
      obtain ⟨node', frame', outer', behind, hs, ha, hne, ht⟩ := h.passed i (by omega)
      have hn : front + 1 - (i + 1) = front - i := by omega
      exact ⟨node', frame', outer', behind, hs, ha, hne, by rw [hn]; exact ht⟩
  · exact h.takes
  · exact h.target
  · rw [Heap.cons_pairs, h.pairs]
    omega
  · rw [Heap.cons_atoms, h.atoms]

theorem relinked_install_ending (name value ending : Value) (heap : Heap)
    (h : ending.isPair = false) :
    Relinked name value ⟨ending⟩ heap 0 ⟨(install name value .nil ending heap).1⟩
      (install name value .nil ending heap).2 := by
  have hs : ∀ node frame outer, ending ≠ .pair node frame outer := by
    rintro node frame outer rfl
    cases h
  constructor
  · intro i hi
    omega
  · intro node frame outer hp
    exact absurd hp (hs node frame outer)
  · cases ending with
    | nil => rfl
    | atom => rfl
    | pair node frame outer => cases h
  · rfl
  · rfl

theorem relinked_install (name value : Value) (node : Nat) (frame outer : Value) (heap : Heap)
    (h : takes name frame outer = true) :
    Relinked name value ⟨.pair node frame outer⟩ heap 0 ⟨(install name value frame outer heap).1⟩
      (install name value frame outer heap).2 := by
  constructor
  · intro i hi
    omega
  · intro node' frame' outer' hp
    obtain ⟨-, rfl, rfl⟩ := Value.pair.inj hp
    exact (takes_eq_true_iff name frame outer).mp h
  · rfl
  · rfl
  · rfl

theorem relinked_setIn (name value chain : Value) (heap : Heap) :
    Relinked name value ⟨chain⟩ heap (targetIn name chain) ⟨(setIn name value chain heap).1⟩
      (setIn name value chain heap).2 := by
  induction chain with
  | nil => exact relinked_install_ending name value .nil heap rfl
  | atom node content => exact relinked_install_ending name value (.atom node content) heap rfl
  | pair node frame outer _ ih =>
    cases h : takes name frame outer with
    | true =>
      rw [setIn_pair_of_takes _ _ _ _ _ _ h, targetIn, if_pos h]
      exact relinked_install name value node frame outer heap h
    | false =>
      obtain ⟨hf, ho⟩ := (takes_eq_false_iff name frame outer).mp h
      rw [setIn_pair_of_passes _ _ _ _ _ _ h, targetIn, h, if_neg (by simp)]
      exact ih.behind node hf ho

/-- The loop that passes frames and links them again computes the recursion along the chain, for
every value as chain. The frames in front of the target and what is behind it are the same nodes as
before, everything else is new, and the cost is three pairs and one for each frame passed. -/
theorem set_relinks_passed_frames (s : Scope) (name value : Value) (heap : Heap) :
    (s.set name value heap).1.chain = (setIn name value s.chain heap).1 ∧
      (s.set name value heap).2 = (setIn name value s.chain heap).2 ∧
      Relinked name value s heap (s.target name) (s.set name value heap).1
        (s.set name value heap).2 := by
  rw [set_eq]
  exact ⟨rfl, rfl, relinked_setIn name value s.chain heap⟩

end LispContext.Scope
