import LispContext.Proofs.Scope.Refinement

/-!
# What a pushed frame binds

A pushed frame binds names to arguments up to the end of the shorter list, the last of them in
front. So of a name that stands there more than once the last place counts, also when the argument
there is the empty list: then a look-up finds the empty list, and a read goes on behind the frame.
-/
namespace LispContext

/-- The name stands at this position in front of the bound, and at no later one. -/
structure LastBefore (bound : Nat) (names : List Value) (name : Value) (position : Nat) : Prop where
  inFront : position < bound
  named : ∃ key, names[position]? = some key ∧ key.equal name = true
  last : ∀ later, position < later → later < bound →
    ∀ key, names[later]? = some key → key.equal name = false

namespace Frame

/-- In a frame that lists its bindings the other way round, the last binding of a name counts. -/
theorem lookup?_reverse_of_last {entries : Frame} {name : Value} {position : Nat}
    {binding : Value × Value} (hb : entries[position]? = some binding)
    (hn : binding.1.equal name = true)
    (hl : ∀ later, position < later → ∀ other, entries[later]? = some other →
      other.1.equal name = false) :
    Frame.lookup? entries.reverse name = some binding.2 := by
  induction entries generalizing position with
  | nil => cases hb
  | cons first rest ih =>
    rw [List.reverse_cons, lookup?_append]
    cases position with
    | zero =>
      cases hb
      have hrest : Frame.lookup? rest.reverse name = none := by
        rw [lookup?_eq_none_iff]
        intro other ho
        obtain ⟨later, hlater⟩ := List.mem_iff_getElem?.mp (List.mem_reverse.mp ho)
        exact hl (later + 1) (Nat.succ_pos later) other hlater
      rw [hrest, Option.none_or, lookup?_cons, if_pos hn]
    | succ position =>
      have hrest := ih hb fun later hlt other ho => hl (later + 1) (Nat.succ_lt_succ hlt) other ho
      rw [hrest, Option.some_or]

/-- The argument at the last place of a name is what the frame has for it. -/
theorem lookup?_zip_of_last {names args : List Value} {name : Value} {position : Nat}
    (h : LastBefore (min names.length args.length) names name position) :
    ∃ arg, args[position]? = some arg ∧
      Frame.lookup? (names.zip args).reverse name = some arg := by
  obtain ⟨key, hk, hkey⟩ := h.named
  have hlt := h.inFront
  have ha : args[position]? = some args[position] := List.getElem?_eq_getElem (by omega)
  have hz : (names.zip args)[position]? = some (key, args[position]) :=
    List.getElem?_zip_eq_some.mpr ⟨hk, ha⟩
  refine ⟨args[position], ha, lookup?_reverse_of_last hz hkey ?_⟩
  intro later hlater other ho
  have hbound := (List.getElem?_eq_some_iff.mp ho).1
  rw [List.length_zip] at hbound
  exact h.last later hlater hbound other.1 (List.getElem?_zip_eq_some.mp ho).1

/-- The frame has nothing for a name at none of the places in front of the end of the shorter list.
-/
theorem lookup?_zip_of_unnamed {names args : List Value} {name : Value}
    (h : ∀ position < min names.length args.length, ∀ key, names[position]? = some key →
      key.equal name = false) :
    Frame.lookup? (names.zip args).reverse name = none := by
  rw [lookup?_eq_none_iff]
  intro binding hb
  obtain ⟨position, hz⟩ := List.mem_iff_getElem?.mp (List.mem_reverse.mp hb)
  have hbound := (List.getElem?_eq_some_iff.mp hz).1
  rw [List.length_zip] at hbound
  exact h position hbound binding.1 (List.getElem?_zip_eq_some.mp hz).1

end Frame

namespace Scope

theorem lookup?_push (s : Scope) (names args : Value) (heap : Heap) (name : Value) :
    (s.push names args heap).1.lookup? name =
      (Frame.lookup? (names.elements.zip args.elements).reverse name).or (s.lookup? name) := by
  rw [lookup?_eq, lookup?_eq, bindings_push, Frames.push, Frames.lookup?, List.findSome?_cons,
    Frames.lookup?]
  cases Frame.lookup? (names.elements.zip args.elements).reverse name <;> rfl

theorem get_push (s : Scope) (names args : Value) (heap : Heap) (name : Value) :
    (s.push names args heap).1.get name =
      (Frame.value? (names.elements.zip args.elements).reverse name).getD (s.get name) := by
  rw [get_eq, get_eq, bindings_push, Frames.push, Frames.get, List.findSome?_cons, Frames.get]
  cases Frame.value? (names.elements.zip args.elements).reverse name <;> rfl

/-- What a pushed frame binds and what it costs, whatever the chain, the names and the arguments
are. With `count` for the length of the shorter list, the last of the first `count` names that
equals a name decides what is found for it, and a name that is not among them is found as before.
Popping gives back the same chain, node for node. -/
theorem pushed_frame_binds_last_arguments (s : Scope) (names args : Value) (heap : Heap)
    (name : Value) :
    let pushed := (s.push names args heap).1
    let later := (s.push names args heap).2
    let count := min names.length args.length
    (∀ position, LastBefore count names.elements name position →
      ∃ arg, args.elements[position]? = some arg ∧ pushed.lookup? name = some arg ∧
        pushed.get name = if arg = .nil then s.get name else arg) ∧
      ((∀ position < count, ∀ key, names.elements[position]? = some key → key.equal name = false) →
        pushed.lookup? name = s.lookup? name ∧ pushed.get name = s.get name) ∧
      pushed.depth = s.depth + 1 ∧
      later.pairs = heap.pairs + (2 * count + 1) ∧ later.atoms = heap.atoms ∧
      pushed.pop = s := by
  intro pushed later count
  have hc : count = min names.elements.length args.elements.length := by
    rw [Value.length_elements, Value.length_elements]
  refine ⟨?_, ?_, depth_push s names args heap, push_pairs s names args heap,
    push_atoms s names args heap, pop_push s names args heap⟩
  · intro position h
    rw [hc] at h
    obtain ⟨arg, ha, hl⟩ := Frame.lookup?_zip_of_last h
    refine ⟨arg, ha, ?_, ?_⟩
    · rw [lookup?_push, hl, Option.some_or]
    · rw [get_push, Frame.value?, hl]
      cases arg <;> rfl
  · intro h
    rw [hc] at h
    have hl := Frame.lookup?_zip_of_unnamed h
    constructor
    · rw [lookup?_push, hl, Option.none_or]
    · rw [get_push, Frame.value?, hl]
      rfl

end Scope

end LispContext
