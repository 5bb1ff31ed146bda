import LispContext.Proofs.Value.Stages

/-!
# Lists passed by a cursor

A cursor goes along the tails of a value and yields the head of each pair that it passes, up to the
first tail that is no pair. What it yields, and where it stops, is all of the value except its
nodes: consing the items back onto the rest gives an equal value. A list that is made of items
yields these items again, the same nodes in the same order.
-/
namespace LispContext

namespace Value

/-- Behind so many elements of a list the others are left. -/
theorem elements_tailAfter (count : Nat) (list : Value) :
    (list.tailAfter count).elements = list.elements.drop count := by
  induction count generalizing list with
  | zero => rfl
  | succ count ih =>
    cases list with
    | nil => rfl
    | atom => rfl
    | pair node item tail => rw [tailAfter, ih, elements_pair, List.drop_succ_cons]

theorem rest_tailAfter (count : Nat) (list : Value) :
    (list.tailAfter count).rest = list.rest := by
  induction count generalizing list with
  | zero => rfl
  | succ count ih =>
    cases list with
    | nil => rfl
    | atom => rfl
    | pair node item tail => rw [tailAfter, ih, rest_pair]

/-- What a list ends in is no pair. -/
theorem isPair_rest (list : Value) : list.rest.isPair = false := by
  induction list with
  | nil => rfl
  | atom => rfl
  | pair node item tail _ ih => rw [rest_pair, ih]

/-- There is no element exactly if the length is zero. -/
theorem isEmpty_iff_length (list : Value) : list.isEmpty = true ↔ list.length = 0 := by
  cases list <;> simp [isEmpty, isPair]

theorem isList_iff_rest (list : Value) : list.isList = true ↔ list.rest = nil := by
  rw [isList, isNil_iff]

end Value

namespace Heap

/-- New pairs with the given items in front of a rest, made from the last to the first. -/
def onto (heap : Heap) (items : List Value) (rest : Value) : Value × Heap :=
  items.foldr (fun item built => built.2.cons item built.1) (rest, heap)

@[simp] theorem onto_cons (heap : Heap) (item : Value) (items : List Value) (rest : Value) :
    heap.onto (item :: items) rest =
      (heap.onto items rest).2.cons item (heap.onto items rest).1 := rfl

/-- A list is put onto the empty list. -/
theorem list_eq_onto (heap : Heap) (items : List Value) : heap.list items = heap.onto items .nil :=
  rfl

/-- The elements put back onto the rest make the same tree again. -/
theorem forget_onto_elements (heap : Heap) (v : Value) :
    (heap.onto v.elements v.rest).1.forget = v.forget := by
  induction v with
  | nil => rfl
  | atom => rfl
  | pair node head tail _ ih =>
    rw [Value.elements_pair, Value.rest_pair, onto_cons, Heap.cons, Value.forget_pair, ih,
      Value.forget_pair]

end Heap

namespace Cursor

def after : Nat → Cursor → Cursor
  | 0, c => c
  | calls + 1, c => after calls c.next.2

/-- Calls of `next` find these items, one after the other, and from then on nothing, with the given
rest in front of the cursor. -/
inductive Yields : Cursor → List Value → Value → Prop
  | stop {c : Cursor} : c.next = (none, c) → Yields c [] c.rest
  | item {c later : Cursor} {item : Value} {items : List Value} {rest : Value} :
    c.next = (some item, later) → Yields later items rest → Yields c (item :: items) rest

@[simp] theorem after_succ (calls : Nat) (c : Cursor) :
    after (calls + 1) c = after calls c.next.2 := rfl

/-- Where nothing is found the cursor stays. -/
theorem after_of_stopped {c : Cursor} (h : c.next = (none, c)) (calls : Nat) :
    after calls c = c := by
  induction calls with
  | zero => rfl
  | succ calls ih => rw [after_succ, h, ih]

/-- A cursor passes the elements of what is in front of it and stops at the rest. -/
theorem yields_elements (v : Value) : v.cursor.Yields v.elements v.rest := by
  induction v with
  | nil => exact .stop rfl
  | atom => exact .stop rfl
  | pair node head tail _ ih =>
    rw [Value.elements_pair, Value.rest_pair]
    exact .item rfl ih

/-- Each call passes one pair, until all are passed. -/
theorem after_cursor (calls : Nat) (v : Value) :
    after calls v.cursor = (v.tailAfter (min calls v.length)).cursor := by
  induction calls generalizing v with
  | zero => rw [Nat.zero_min]; rfl
  | succ calls ih =>
    cases v with
    | nil => exact after_of_stopped rfl (calls + 1)
    | atom node content => exact after_of_stopped rfl (calls + 1)
    | pair node head tail =>
      rw [Value.length_pair, Nat.succ_min_succ]
      exact ih tail

/-- A copy of the cursor passes the elements that the calls before it have left. -/
theorem yields_after (calls : Nat) (v : Value) :
    (after calls v.cursor).Yields (v.elements.drop (min calls v.length)) v.rest := by
  rw [after_cursor, ← Value.elements_tailAfter, ← Value.rest_tailAfter (min calls v.length)]
  exact yields_elements _

theorem left_after (calls : Nat) (v : Value) :
    (after calls v.cursor).left = v.length - min calls v.length := by
  have hl := Value.length_tailAfter (Nat.min_le_right calls v.length)
  rw [after_cursor]
  exact Nat.eq_sub_of_add_eq hl.symm

end Cursor

namespace Value

/-- Iteration takes a value apart into its elements and its rest, and leaves nothing out: from these
an equal value is made. After some calls the cursor is in front of the tail behind as many elements,
or of the rest if there are not so many, and a copy of it passes exactly those that are left. A list
made of items is proper and yields the items, at the cost of one pair for each. -/
theorem iteration_inverts_building (v : Value) :
    v.cursor.Yields v.elements v.rest ∧ v.rest.isPair = false ∧
      (∀ heap : Heap, (heap.onto v.elements v.rest).1.equal v = true) ∧
      (∀ calls, let place := v.cursor.after calls
        let passed := min calls v.length
        place.rest = v.tailAfter passed ∧ place.left = v.length - passed ∧
          place.Yields (v.elements.drop passed) v.rest ∧
          (v.elements.drop passed).length = v.length - passed) ∧
      v.elements.length = v.length ∧
      (v.isEmpty = true ↔ v.length = 0) ∧ (v.isList = true ↔ v.rest = nil) ∧
      (∀ (items : List Value) (heap : Heap), let made := heap.list items
        made.1.isList = true ∧ made.1.cursor.Yields items nil ∧
          made.2.pairs = heap.pairs + items.length ∧ made.2.atoms = heap.atoms) ∧
      (v.isList = true → ∀ heap : Heap, (heap.list v.elements).1.equal v = true) := by
  have honto (heap : Heap) : (heap.onto v.elements v.rest).1.equal v = true :=
    equal_of_forget_eq (heap.forget_onto_elements v)
  refine ⟨Cursor.yields_elements v, isPair_rest v, honto, ?_, length_elements v,
    isEmpty_iff_length v, isList_iff_rest v, ?_, ?_⟩
  · intro calls place passed
    refine ⟨?_, Cursor.left_after calls v, Cursor.yields_after calls v, ?_⟩
    · rw [show place = _ from Cursor.after_cursor calls v, cursor]
    · rw [List.length_drop, length_elements]
  · intro items heap made
    have hrest : made.1.rest = nil := heap.rest_list items
    have hyields := Cursor.yields_elements made.1
    rw [hrest, heap.elements_list items] at hyields
    exact ⟨(isList_iff_rest made.1).mpr hrest, hyields, heap.list_pairs items,
      heap.list_atoms items⟩
  · intro hl heap
    rw [Heap.list_eq_onto, ← (isList_iff_rest v).mp hl]
    exact honto heap

end Value

end LispContext
