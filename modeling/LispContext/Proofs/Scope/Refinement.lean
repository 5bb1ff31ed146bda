import LispContext.Proofs.Scope.Tables

/-!
# Scopes as lists of frames

Pushes, pops and updates of a chain are the same operations on a list of frames, each a list of
bindings. Names, arguments and values are arbitrary, and so are the allocations in between. The
representation is kept by every change, and it determines what every observation of a scope finds.
-/
namespace LispContext

namespace Frame

/-- The first binding of a name gives it a value other than the empty list. -/
def hasValue (frame : Frame) (name : Value) : Bool := (frame.value? name).isSome

theorem hasValue_cons (key value : Value) (frame : Frame) (name : Value) :
    hasValue ((key, value) :: frame) name =
      if key.equal name then !value.isNil else frame.hasValue name := by
  rw [hasValue, value?_cons]
  cases key.equal name with
  | false => rfl
  | true => cases value <;> rfl

theorem hasValue_cons_same (name : Value) {value : Value} (frame : Frame) (hv : value ≠ .nil) :
    hasValue ((name, value) :: frame) name = true := by
  rw [hasValue_cons, Value.equal_refl]
  cases value with
  | nil => exact absurd rfl hv
  | atom => rfl
  | pair => rfl

theorem hasValue_cons_other {key name : Value} (value : Value) (frame : Frame)
    (h : key.equal name = false) :
    hasValue ((key, value) :: frame) name = frame.hasValue name := by
  rw [hasValue_cons, h]
  rfl

end Frame

namespace Frames

/-- The frame that an update goes to: the innermost with a value for the name, or else the
outermost. -/
def target (frames : Frames) (name : Value) : Nat :=
  (frames.findIdx? (·.hasValue name)).getD (frames.length - 1)

/-- A new binding in front of the target frame, or in a frame of its own if there is none. -/
def assign (frames : Frames) (name value : Value) : Frames :=
  if frames.isEmpty then [[(name, value)]]
  else frames.modify (frames.target name) ((name, value) :: ·)

@[simp] theorem target_singleton (frame : Frame) (name : Value) : target [frame] name = 0 := by
  by_cases h : frame.hasValue name = true <;> simp [target, List.findIdx?_cons, h]

theorem target_of_hasValue (frame : Frame) (outer : Frames) (name : Value)
    (h : frame.hasValue name = true) : target (frame :: outer) name = 0 := by
  simp [target, List.findIdx?_cons, h]

theorem target_of_not_hasValue (frame : Frame) (outer : Frames) (name : Value)
    (h : frame.hasValue name = false) (ho : outer ≠ []) :
    target (frame :: outer) name = target outer name + 1 := by
  have hl := List.length_pos_iff.mpr ho
  cases hf : outer.findIdx? (·.hasValue name) with
  | none =>
    simp only [target, List.findIdx?_cons, h, hf, Bool.false_eq_true, if_false, Option.map_none,
      Option.getD_none, List.length_cons]
    omega
  | some i => simp [target, List.findIdx?_cons, h, hf]

theorem set_cons_cons (name value : Value) (frame next : Frame) (outer : Frames) :
    set name value (frame :: next :: outer) =
      if frame.hasValue name then ((name, value) :: frame) :: next :: outer
      else frame :: set name value (next :: outer) := rfl

/-- Descending frame by frame finds the target. -/
theorem set_eq_assign (frames : Frames) (name value : Value) :
    frames.set name value = frames.assign name value := by
  induction frames with
  | nil => rfl
  | cons frame outer ih =>
    cases outer with
    | nil => simp [set, assign]
    | cons next outer =>
      rw [set_cons_cons, ih]
      cases h : frame.hasValue name with
      | true => simp [assign, target_of_hasValue, h]
      | false => simp [assign, target_of_not_hasValue, h]

end Frames

namespace Value

/-- A table gives a name a value exactly if the first binding in it does. -/
theorem isNil_assoc (name list : Value) :
    (assoc name list).isNil = !list.bindings.hasValue name := by
  rw [assoc_eq_value?, Frame.hasValue]
  cases h : list.bindings.value? name with
  | none => rfl
  | some value =>
    have hv := (Option.mem_filter_iff.mp h).2
    simpa using hv

end Value

namespace Scope

theorem takes_eq (name frame outer : Value) :
    takes name frame outer = (frame.bindings.hasValue name || outer.isNil) := by
  rw [takes, Value.isNil_assoc, Bool.not_not]

/-- Updating a proper chain updates its frames. -/
theorem bindings_setIn (name value chain : Value) (heap : Heap) (h : chain.isList = true) :
    (Scope.mk (setIn name value chain heap).1).bindings =
      Frames.set name value (Scope.mk chain).bindings := by
  induction chain with
  | nil => simp [setIn, Frames.set, bindings_nil]
  | atom => simp [Value.isList, Value.isNil] at h
  | pair node frame outer _ ih =>
    cases outer with
    | nil => simp [setIn, takes, Frames.set, bindings_nil]
    | atom => simp [Value.isList, Value.isNil] at h
    | pair node' frame' outer =>
      have ht := takes_eq name frame (.pair node' frame' outer)
      have hs := ih (by simpa using h)
      rw [bindings_pair, bindings_pair, Frames.set_cons_cons, ← bindings_pair node' frame' outer]
      cases hv : frame.bindings.hasValue name with
      | true =>
        rw [setIn_pair_of_takes _ _ _ _ _ _ (by simp [ht, hv])]
        simp
      | false =>
        rw [setIn_pair_of_passes _ _ _ _ _ _ (by simp [ht, hv, Value.isNil])]
        simp [Heap.cons, hs]

theorem bindings_set (s : Scope) (name value : Value) (heap : Heap) (h : s.chain.isList = true) :
    (s.set name value heap).1.bindings = s.bindings.assign name value := by
  rw [set_eq, ← Frames.set_eq_assign]
  exact bindings_setIn name value s.chain heap h

theorem bindings_push (s : Scope) (names args : Value) (heap : Heap) :
    (s.push names args heap).1.bindings = s.bindings.push names.elements args.elements := by
  rw [Frames.push, show (s.push names args heap).1 = ⟨_⟩ from rfl, bindings_pair,
    bindings_bindAll, Value.bindings_nil, List.append_nil]

inductive Change where
  | push (names args : Value)
  | pop
  | assign (name value : Value)
  deriving DecidableEq, Repr

def change (s : Scope) (heap : Heap) : Change → Scope × Heap
  | .push names args => s.push names args heap
  | .pop => (s.pop, heap)
  | .assign name value => s.set name value heap

/-- Makes changes in order, each on the heap that it comes with. Whatever else is allocated between
two changes shows in the heap of the later one. -/
def changeAll : List (Heap × Change) → Scope → Scope
  | [], s => s
  | (heap, c) :: later, s => changeAll later (s.change heap c).1

end Scope

namespace Frames

def change (frames : Frames) : Scope.Change → Frames
  | .push names args => frames.push names.elements args.elements
  | .pop => frames.pop
  | .assign name value => frames.assign name value

def changeAll (changes : List Scope.Change) (frames : Frames) : Frames :=
  changes.foldl change frames

end Frames

namespace Scope

/-- The chain is made of these frames and of nothing else. -/
structure Represents (s : Scope) (frames : Frames) : Prop where
  wellFormed : s.WellFormed
  bindings : s.bindings = frames

theorem represents_new (heap : Heap) : Represents (new heap).1 [[]] :=
  ⟨wellFormed_new heap, rfl⟩

/-- One change of the chain is one change of the frames. -/
theorem change_represents (s : Scope) (frames : Frames) (heap : Heap) (c : Change)
    (h : Represents s frames) : Represents (s.change heap c).1 (frames.change c) := by
  obtain ⟨hw, rfl⟩ := h
  cases c with
  | push names args => exact ⟨hw.push names args heap, bindings_push s names args heap⟩
  | pop => exact ⟨hw.pop, bindings_pop s⟩
  | assign name value => exact ⟨hw.set name value heap, bindings_set s name value heap hw.isList⟩

theorem changeAll_represents (changes : List (Heap × Change)) (s : Scope) (frames : Frames)
    (h : Represents s frames) :
    Represents (s.changeAll changes) (frames.changeAll (changes.map Prod.snd)) := by
  induction changes generalizing s frames with
  | nil => exact h
  | cons entry later ih => exact ih _ _ (change_represents s frames entry.1 entry.2 h)

/-- The outermost frame is the last. -/
theorem bindings_outermost? (s : Scope) :
    s.outermost?.map Value.bindings = s.bindings.getLast? := by
  simp [outermost?, bindings, frames]

theorem isExhausted_eq (s : Scope) : s.isExhausted = s.bindings.isEmpty := by
  obtain ⟨chain⟩ := s
  cases chain <;> simp [isExhausted, bindings, frames, Value.isPair]

/-- After every sequence of changes of a new scope, and so after each prefix of one, the chain is a
proper list of proper lists of pairs, and it is the list of frames that the same changes make. Each
observation finds in the chain what it finds in the frames. -/
theorem changes_agree_with_frames (start : Heap) (changes : List (Heap × Change)) :
    let s := (new start).1.changeAll changes
    let frames := Frames.changeAll (changes.map Prod.snd) [[]]
    s.WellFormed ∧ s.bindings = frames ∧
      (∀ name, s.get name = frames.get name) ∧
      (∀ name, s.lookup? name = frames.lookup? name) ∧
      (∀ name, s.binds name = frames.binds name) ∧
      s.depth = frames.length ∧
      s.outermost?.map Value.bindings = frames.getLast? ∧
      s.isExhausted = frames.isEmpty := by
  intro s frames
  obtain ⟨hw, hb⟩ := changeAll_represents changes _ _ (represents_new start)
  refine ⟨hw, hb, ?_, ?_, ?_, ?_, ?_, ?_⟩
  · intro name
    rw [get_eq, hb]
  · intro name
    rw [lookup?_eq, hb]
  · intro name
    rw [binds_eq, hb]
  · rw [← length_bindings, hb]
  · rw [bindings_outermost?, hb]
  · rw [isExhausted_eq, hb]

end Scope

end LispContext
