import LispContext.Value.Basic

/-!
A store of pairs with handle counts. Each live pair has a slot, and its slot number is what handles
to it carry. A handle is either kept outside the store or lies in a field of a live pair; the count
of a pair says how many there are. Atoms and the empty list hold no handle.

A pair whose last handle is given back is freed: the handles are taken out of its fields and are the
next to be given back, so the fields are empty by the time the pair goes away, and the work runs in
a loop over the handles still to be given back.
-/
namespace LispContext

inductive Field where
  | nil
  | atom (content : Atom)
  | pair (slot : Nat)
  deriving DecidableEq, Repr, Inhabited

def Field.handles : Field → List Nat
  | pair slot => [slot]
  | _ => []

/-- A pair with the number of handles to it. -/
structure Cell where
  count : Nat
  head : Field
  tail : Field
  deriving DecidableEq, Repr

namespace Cell

def handles (c : Cell) : List Nat := c.head.handles ++ c.tail.handles

def emptied (c : Cell) : Cell := { c with head := .nil, tail := .nil }

@[simp] theorem handles_emptied (c : Cell) : c.emptied.handles = [] := rfl

/-- Two fields hold two handles at most. -/
theorem length_handles_le (c : Cell) : c.handles.length ≤ 2 := by
  obtain ⟨_, head, tail⟩ := c
  cases head <;> cases tail <;> simp [handles, Field.handles]

end Cell

/-- Slots, each with a live pair or free. -/
structure Store where
  slots : List (Option Cell) := []
  deriving DecidableEq, Repr, Inhabited

namespace Store

def get? (s : Store) (slot : Nat) : Option Cell := s.slots[slot]?.join

def put (s : Store) (slot : Nat) (content : Option Cell) : Store := ⟨s.slots.set slot content⟩

def live (s : Store) : Nat := s.slots.countP Option.isSome

def inner (s : Store) : List Nat := s.slots.flatMap fun cell => (cell.map Cell.handles).getD []

/-- Every live pair has the count of the handles to it, those outside and those in fields, and every
handle is one to a live pair. -/
structure Counted (s : Store) (outside : List Nat) : Prop where
  count : ∀ slot cell, s.get? slot = some cell → cell.count = (outside ++ s.inner).count slot
  live : ∀ slot ∈ outside ++ s.inner, (s.get? slot).isSome

/-- The pair in the second slot can be reached from the pair in the first, through fields. -/
inductive Reaches (s : Store) : Nat → Nat → Prop where
  | self (slot : Nat) : Reaches s slot slot
  | field {first slot next : Nat} {cell : Cell} (path : Reaches s first slot)
      (found : s.get? slot = some cell) (held : next ∈ cell.handles) : Reaches s first next

def Reachable (s : Store) (outside : List Nat) (slot : Nat) : Prop :=
  ∃ first ∈ outside, s.Reaches first slot

/-- No pair lies behind one of its own fields. -/
def Acyclic (s : Store) : Prop :=
  ∀ slot cell next, s.get? slot = some cell → next ∈ cell.handles → ¬ s.Reaches next slot

theorem get?_put_same (s : Store) (slot : Nat) (content : Option Cell)
    (bound : slot < s.slots.length) :
    (s.put slot content).get? slot = content := by
  simp [get?, put, bound]

theorem get?_put_other (s : Store) {slot other : Nat} (content : Option Cell) (h : other ≠ slot) :
    (s.put slot content).get? other = s.get? other := by
  simp [get?, put, h.symm]

theorem lt_length_of_get? {s : Store} {slot : Nat} {cell : Cell} (found : s.get? slot = some cell) :
    slot < s.slots.length := by
  by_cases bound : slot < s.slots.length
  · exact bound
  · simp [get?, List.getElem?_eq_none (Nat.le_of_not_lt bound)] at found

theorem getElem_of_get? {s : Store} {slot : Nat} {cell : Cell} (found : s.get? slot = some cell)
    (bound : slot < s.slots.length) : s.slots[slot] = some cell := by
  simpa [get?, bound] using found

/-- Freeing the slot of a live pair leaves one live pair less. -/
theorem live_put_none {s : Store} {slot : Nat} {cell : Cell} (found : s.get? slot = some cell) :
    (s.put slot none).live + 1 = s.live := by
  have bound := lt_length_of_get? found
  have counted := List.boole_getElem_le_countP (p := Option.isSome) bound
  simp only [getElem_of_get? found bound, Option.isSome_some, if_true] at counted
  simp only [live, put, List.countP_set bound, getElem_of_get? found bound, Option.isSome_some,
    if_true]
  simp
  omega

/-- Changing a live pair leaves the number of live pairs as it is. -/
theorem live_put_some {s : Store} {slot : Nat} {cell : Cell} (found : s.get? slot = some cell)
    (cell' : Cell) : (s.put slot (some cell')).live = s.live := by
  have bound := lt_length_of_get? found
  have counted := List.boole_getElem_le_countP (p := Option.isSome) bound
  simp only [getElem_of_get? found bound, Option.isSome_some, if_true] at counted
  simp only [live, put, List.countP_set bound, getElem_of_get? found bound, Option.isSome_some,
    if_true]
  omega

/-- The store after handles were given back, and the pairs freed on the way, each with what was left
in its fields, latest first. -/
structure Released where
  store : Store
  freed : List (Nat × Cell)
  deriving DecidableEq, Repr

/-- Gives back the handles of a list, first to last, and those of every pair that is freed thereby.
A handle to a free slot is passed over. -/
def releaseAll (s : Store) (freed : List (Nat × Cell)) : List Nat → Released
  | [] => ⟨s, freed⟩
  | slot :: pending =>
    match _found : s.get? slot with
    | none => releaseAll s freed pending
    | some cell =>
      if cell.count ≤ 1 then
        releaseAll (s.put slot none) ((slot, cell.emptied) :: freed) (cell.handles ++ pending)
      else releaseAll (s.put slot (some { cell with count := cell.count - 1 })) freed pending
termination_by pending => 3 * s.live + pending.length
decreasing_by
  · simp
  · have fewer := live_put_none _found
    have children := cell.length_handles_le
    simp
    omega
  · simp [live_put_some _found]

def release (s : Store) (slot : Nat) : Released := s.releaseAll [] [slot]

/-- With no handle to give back nothing happens. -/
@[simp] theorem releaseAll_nil (s : Store) (freed : List (Nat × Cell)) :
    s.releaseAll freed [] = ⟨s, freed⟩ := by simp [releaseAll]

end Store

end LispContext
