import LispContext.Proofs.Scope.Growth
import LispContext.Proofs.Scope.Refinement

/-!
# Which frame owns a name

An update goes to the frame that owns the name, and puts one binding in front of it. This is said of
every chain, proper or not. What a read finds after the update follows from where its search meets
the owner: no frame in front of the owner has a value for the name, but one may bind the name to the
empty list, and then a look-up of the name ends there.

As long as pops leave the owner in the chain, the popped chain is the one that the update makes of
the popped chain before it. With the owner the update is gone, and the chain is the same node as if
it had never been made.
-/
namespace LispContext

namespace Frames

/-- A new binding in front of the frame at a position, or in a frame of its own behind all the
others if there is none. -/
def bindAt (position : Nat) (binding : Value × Value) (frames : Frames) : Frames :=
  frames.take position ++ (binding :: frames[position]?.getD []) :: frames.drop (position + 1)

@[simp] theorem bindAt_nil (position : Nat) (binding : Value × Value) :
    bindAt position binding [] = [[binding]] := by simp [bindAt]

@[simp] theorem bindAt_zero (binding : Value × Value) (frame : Frame) (outer : Frames) :
    bindAt 0 binding (frame :: outer) = (binding :: frame) :: outer := by simp [bindAt]

@[simp] theorem bindAt_succ (position : Nat) (binding : Value × Value) (frame : Frame)
    (outer : Frames) :
    bindAt (position + 1) binding (frame :: outer) = frame :: bindAt position binding outer := by
  simp [bindAt]

/-- A search frame by frame meets the frames in front of the binding, then its frame, then the
frames behind. -/
theorem findSome?_bindAt {α : Type} (read : Frame → Option α) (position : Nat)
    (binding : Value × Value) (frames : Frames) :
    (bindAt position binding frames).findSome? read =
      ((frames.take position).findSome? read).or
        ((read (binding :: frames[position]?.getD [])).or
          ((frames.drop (position + 1)).findSome? read)) := by
  rw [bindAt, List.findSome?_append, List.findSome?_cons]
  cases read (binding :: frames[position]?.getD []) <;> rfl

/-- A search that does not see the binding finds what it found without it. -/
theorem findSome?_bindAt_of_unseen {α : Type} (read : Frame → Option α) (position : Nat)
    (binding : Value × Value) (frames : Frames) (hb : ∀ frame, read (binding :: frame) = read frame)
    (hn : read [] = none) :
    (bindAt position binding frames).findSome? read = frames.findSome? read := by
  induction frames generalizing position with
  | nil => simp [hb, hn]
  | cons frame outer ih =>
    cases position with
    | zero => simp [List.findSome?_cons, hb]
    | succ position => simp [List.findSome?_cons, ih]

end Frames

namespace Scope

/-- The frame that owns a name, counted from the innermost: the innermost frame whose first binding
of the name has a value other than the empty list. A name without such a value belongs to the last
frame of a proper list of frames, and otherwise to a frame still to be made behind all others. -/
def owner (s : Scope) (name : Value) : Nat :=
  match s.bindings.findIdx? (·.hasValue name) with
  | some position => position
  | none => if s.chain.isList && s.chain.isPair then s.depth - 1 else s.depth

theorem owner_pair (name : Value) (node : Nat) (frame outer : Value) :
    owner ⟨.pair node frame outer⟩ name =
      if takes name frame outer then 0 else owner ⟨outer⟩ name + 1 := by
  rw [owner, owner, takes_eq, bindings_pair, List.findIdx?_cons]
  cases hv : frame.bindings.hasValue name with
  | true => simp
  | false =>
    cases outer with
    | nil => simp [bindings_nil, depth, Value.isPair]
    | atom node content =>
      simp [bindings, frames, depth, Value.isPair, Value.isList, Value.isNil]
    | pair node' frame' outer =>
      cases (Scope.mk (.pair node' frame' outer)).bindings.findIdx? (·.hasValue name) with
      | some position => simp [Value.isNil]
      | none =>
        cases hl : outer.isList with
        | true => simp [Value.isNil, Value.isPair, hl, depth]
        | false => simp [Value.isNil, hl, depth]

/-- The descent of an update along the chain ends at the owner of the name. -/
theorem target_eq_owner (s : Scope) (name : Value) : s.target name = s.owner name := by
  obtain ⟨chain⟩ := s
  rw [target]
  induction chain with
  | nil => rfl
  | atom node content => rfl
  | pair node frame outer _ ih => rw [targetIn, owner_pair, ih]

theorem bindings_setIn_owner (name value chain : Value) (heap : Heap) :
    (Scope.mk (setIn name value chain heap).1).bindings =
      (Scope.mk chain).bindings.bindAt (owner ⟨chain⟩ name) (name, value) := by
  induction chain with
  | nil => simp [setIn, bindings_nil]
  | atom node content => simp [setIn, bindings, frames]
  | pair node frame outer _ ih =>
    rw [owner_pair, bindings_pair]
    cases h : takes name frame outer with
    | true =>
      rw [setIn_pair_of_takes _ _ _ _ _ _ h]
      simp
    | false =>
      rw [setIn_pair_of_passes _ _ _ _ _ _ h]
      simp [Heap.cons, ih]

/-- Whatever the chain, an update puts one binding in front of the owner. -/
theorem bindings_set_owner (s : Scope) (name value : Value) (heap : Heap) :
    (s.set name value heap).1.bindings = s.bindings.bindAt (s.owner name) (name, value) := by
  rw [set_eq]
  exact bindings_setIn_owner name value s.chain heap

/-- No frame in front of the owner has a value for the name. -/
theorem hasValue_front (s : Scope) (name : Value) :
    ∀ frame ∈ s.bindings.take (s.owner name), frame.hasValue name = false := by
  obtain ⟨chain⟩ := s
  induction chain with
  | nil => simp [bindings_nil]
  | atom node content => simp [bindings, frames]
  | pair node frame outer _ ih =>
    rw [owner_pair, bindings_pair]
    cases h : takes name frame outer with
    | true => simp
    | false =>
      rw [takes_eq, Bool.or_eq_false_iff] at h
      simpa using ⟨h.1, ih⟩

/-- Reading the name finds the new value. If that is the empty list, the search goes on behind the
owner. -/
theorem get_set_same (s : Scope) (name value : Value) (heap : Heap) :
    (s.set name value heap).1.get name =
      if value = .nil then (popMany (s.owner name + 1) s).get name else value := by
  have hfront : (s.bindings.take (s.owner name)).findSome? (·.value? name) = none := by
    rw [List.findSome?_eq_none_iff]
    intro frame hf
    have hv := hasValue_front s name frame hf
    rwa [Frame.hasValue, Option.isSome_eq_false_iff, Option.isNone_iff_eq_none] at hv
  rw [get_eq, get_eq, bindings_set_owner, bindings_popMany, Frames.get, Frames.findSome?_bindAt,
    hfront, Frame.value?_cons, Value.equal_refl, if_pos rfl, Frames.get]
  split <;> rfl

/-- Looking the name up finds the new value, unless a frame in front of the owner binds the name.
That binding has the empty list as value, and the look-up ends there. -/
theorem lookup?_set_same (s : Scope) (name value : Value) (heap : Heap) :
    (s.set name value heap).1.lookup? name =
      some (if Frames.binds (s.bindings.take (s.owner name)) name then .nil else value) := by
  rw [lookup?_eq, bindings_set_owner, Frames.lookup?, Frames.findSome?_bindAt, Frame.lookup?_cons,
    Value.equal_refl, if_pos rfl, Frames.binds_eq_isSome, Frames.lookup?]
  cases hf : (s.bindings.take (s.owner name)).findSome? (·.lookup? name) with
  | none => rfl
  | some found =>
    obtain ⟨frame, hm, hl⟩ := List.exists_of_findSome?_eq_some hf
    have hv := hasValue_front s name frame hm
    have hn : found = .nil := by simpa [Frame.hasValue, Frame.value?, hl, Option.filter] using hv
    rw [hn]
    rfl

theorem get_set_other (s : Scope) {name other : Value} (value : Value) (heap : Heap)
    (h : name.equal other = false) : (s.set name value heap).1.get other = s.get other := by
  rw [get_eq, get_eq, bindings_set_owner, Frames.get, Frames.get,
    Frames.findSome?_bindAt_of_unseen]
  · intro frame
    rw [Frame.value?_cons, h]
    rfl
  · rfl

theorem lookup?_set_other (s : Scope) {name other : Value} (value : Value) (heap : Heap)
    (h : name.equal other = false) : (s.set name value heap).1.lookup? other = s.lookup? other := by
  rw [lookup?_eq, lookup?_eq, bindings_set_owner, Frames.lookup?, Frames.lookup?,
    Frames.findSome?_bindAt_of_unseen]
  · intro frame
    rw [Frame.lookup?_cons, h]
    rfl
  · rfl

/-! ## How long an update lasts -/

/-- Popping an updated chain. If the popped frame owns the name, the update goes with it; if not,
the update is one of the chain behind that frame. -/
theorem pop_set (s : Scope) (name value : Value) (heap : Heap) :
    (s.set name value heap).1.pop =
      if s.owner name = 0 then s.pop else (s.pop.set name value heap).1 := by
  obtain ⟨chain⟩ := s
  cases chain with
  | nil => rfl
  | atom node content => rfl
  | pair node frame outer =>
    rw [owner_pair, set_eq]
    cases h : takes name frame outer with
    | true =>
      rw [setIn_pair_of_takes _ _ _ _ _ _ h]
      simp [pop]
    | false =>
      rw [setIn_pair_of_passes _ _ _ _ _ _ h, set_eq]
      simp [pop, Heap.cons]

theorem owner_pop (s : Scope) (name : Value) (h : s.owner name ≠ 0) :
    s.pop.owner name + 1 = s.owner name := by
  obtain ⟨chain⟩ := s
  cases chain with
  | nil => exact absurd rfl h
  | atom node content => exact absurd rfl h
  | pair node frame outer =>
    rw [owner_pair] at h ⊢
    cases ht : takes name frame outer with
    | true => simp [ht] at h
    | false => rfl

/-- As long as the owner is not popped, popping and updating commute, down to the nodes. -/
theorem popMany_set_of_le (s : Scope) (name value : Value) (heap : Heap) (pops : Nat)
    (h : pops ≤ s.owner name) :
    popMany pops (s.set name value heap).1 = ((popMany pops s).set name value heap).1 ∧
      pops + (popMany pops s).owner name = s.owner name := by
  induction pops generalizing s with
  | zero => exact ⟨rfl, Nat.zero_add _⟩
  | succ pops ih =>
    have h0 : s.owner name ≠ 0 := by omega
    have ho := owner_pop s name h0
    obtain ⟨hs, hp⟩ := ih s.pop (by omega)
    rw [popMany_succ, popMany_succ, pop_set, if_neg h0]
    exact ⟨hs, by omega⟩

/-- Once the owner is popped, the chain is what it is without the update. -/
theorem popMany_set_of_lt (s : Scope) (name value : Value) (heap : Heap) (pops : Nat)
    (h : s.owner name < pops) : popMany pops (s.set name value heap).1 = popMany pops s := by
  induction pops generalizing s with
  | zero => omega
  | succ pops ih =>
    rw [popMany_succ, popMany_succ, pop_set]
    split
    · rfl
    · next h0 =>
      have ho := owner_pop s name h0
      exact ih s.pop (by omega)

/-- The lifetime of an update, on every value as chain. The update goes to the owner of the name.
Until the owner is popped, the name reads as the new value, or where that is the empty list as what
is found behind the owner, and every other name reads as before. After that both chains are one and
the same node. -/
theorem updates_last_as_long_as_their_frame (s : Scope) (name value : Value) (heap : Heap) :
    let updated := (s.set name value heap).1
    s.target name = s.owner name ∧
      (∀ pops ≤ s.owner name,
        (popMany pops updated).get name =
          (if value = .nil then (popMany (s.owner name + 1) s).get name else value) ∧
        ∀ other, name.equal other = false →
          (popMany pops updated).get other = (popMany pops s).get other) ∧
      ∀ pops > s.owner name, popMany pops updated = popMany pops s := by
  intro updated
  refine ⟨target_eq_owner s name, ?_, fun pops h => popMany_set_of_lt s name value heap pops h⟩
  intro pops h
  obtain ⟨hs, ho⟩ := popMany_set_of_le s name value heap pops h
  rw [hs]
  constructor
  · rw [get_set_same, ← popMany_add, ← ho, Nat.add_assoc]
  · intro other hn
    exact get_set_other _ value heap hn

end Scope

end LispContext
