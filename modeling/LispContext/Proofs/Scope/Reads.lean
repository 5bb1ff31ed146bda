import LispContext.Context.Basic
import LispContext.Proofs.Scope.Owners

/-!
# Strict reads and lenient reads

A strict read takes the nearest binding of a name, whatever its value, and fails where there is
none. A lenient read takes the first value other than the empty list and never fails. The two differ
only where a name is bound to the empty list. An update follows the lenient read, so what was just
written can be hidden from the strict one.
-/
namespace LispContext

namespace Frame

/-- No binding has the empty list as value. -/
def Valued (frame : Frame) : Prop := ∀ binding ∈ frame, binding.2 ≠ .nil

theorem Valued.lookup?_ne {frame : Frame} (h : frame.Valued) (name : Value) :
    frame.lookup? name ≠ some .nil := by
  intro hl
  obtain ⟨binding, hf, hv⟩ := Option.map_eq_some_iff.mp hl
  exact h binding (List.mem_of_find?_eq_some hf) hv

/-- A first binding to anything but the empty list is seen by both reads alike. -/
theorem value?_eq_lookup? {frame : Frame} {name : Value} (h : frame.lookup? name ≠ some .nil) :
    frame.value? name = frame.lookup? name := by
  rw [value?]
  cases hl : frame.lookup? name with
  | none => rfl
  | some found =>
    cases found with
    | nil => exact absurd hl h
    | atom => rfl
    | pair => rfl

end Frame

namespace Frames

/-- Where no first binding of the name has the empty list as value, both reads find the same. -/
theorem get_eq_lookup? {frames : Frames} {name : Value}
    (h : ∀ frame ∈ frames, frame.lookup? name ≠ some .nil) :
    frames.get name = (frames.lookup? name).getD .nil := by
  have hs : frames.findSome? (·.value? name) = frames.findSome? (·.lookup? name) := by
    induction frames with
    | nil => rfl
    | cons frame outer ih =>
      obtain ⟨hf, ho⟩ := List.forall_mem_cons.mp h
      rw [List.findSome?_cons, List.findSome?_cons, ih ho, Frame.value?_eq_lookup? hf]
  rw [get, hs, lookup?]

/-- A name that is bound nowhere has no value. -/
theorem get_eq_nil_of_lookup? {frames : Frames} {name : Value} (h : frames.lookup? name = none) :
    frames.get name = .nil := by
  rw [get_eq_lookup?, h]
  · rfl
  · intro frame hm
    rw [List.findSome?_eq_none_iff.mp h frame hm]
    exact nofun

/-- A value other than the empty list in the nearest binding is the value of the name. -/
theorem get_eq_of_lookup? {frames : Frames} {name found : Value}
    (h : frames.lookup? name = some found) (hn : found ≠ .nil) : frames.get name = found := by
  induction frames with
  | nil => cases h
  | cons frame outer ih =>
    rw [lookup?, List.findSome?_cons] at h
    rw [get, List.findSome?_cons]
    cases hl : frame.lookup? name with
    | none =>
      rw [hl] at h
      rw [Frame.value?, hl]
      exact ih h
    | some first =>
      rw [hl] at h
      cases h
      rw [Frame.value?_eq_lookup? (by simpa [hl] using hn), hl]
      rfl

def Valued (frames : Frames) : Prop := ∀ frame ∈ frames, frame.Valued

theorem Valued.assign {frames : Frames} (h : frames.Valued) (name : Value) {value : Value}
    (hv : value ≠ .nil) : (frames.assign name value).Valued := by
  rw [← set_eq_assign]
  induction frames with
  | nil => simpa [set, Valued, Frame.Valued] using hv
  | cons frame outer ih =>
    obtain ⟨hf, ho⟩ := List.forall_mem_cons.mp h
    have hb : Frame.Valued ((name, value) :: frame) := List.forall_mem_cons.mpr ⟨hv, hf⟩
    cases outer with
    | nil => exact List.forall_mem_singleton.mpr hb
    | cons next outer =>
      rw [set_cons_cons]
      split
      · exact List.forall_mem_cons.mpr ⟨hb, ho⟩
      · exact List.forall_mem_cons.mpr ⟨hf, ih ho⟩

end Frames

/-- The change binds no name to the empty list. Arguments without a name do not count. -/
def Scope.Change.Valued : Scope.Change → Prop
  | push names args => ∀ binding ∈ names.elements.zip args.elements, binding.2 ≠ .nil
  | pop => True
  | assign _ value => value ≠ .nil

namespace Frames

theorem Valued.change {frames : Frames} (h : frames.Valued) {c : Scope.Change} (hc : c.Valued) :
    (frames.change c).Valued := by
  cases c with
  | push names args =>
    refine List.forall_mem_cons.mpr ⟨?_, h⟩
    intro binding hb
    exact hc binding (List.mem_reverse.mp hb)
  | pop => exact fun frame hm => h frame (List.mem_of_mem_tail hm)
  | assign name value => exact h.assign name hc

theorem Valued.changeAll {frames : Frames} (h : frames.Valued) (changes : List Scope.Change)
    (hc : ∀ c ∈ changes, c.Valued) : (frames.changeAll changes).Valued := by
  induction changes generalizing frames with
  | nil => exact h
  | cons c later ih =>
    obtain ⟨hf, hl⟩ := List.forall_mem_cons.mp hc
    exact ih (h.change hf) hl

end Frames

/-- A new scope and changes that bind no name to the empty list give a scope without such
bindings. -/
theorem Scope.valued_changeAll (start : Heap) (changes : List (Heap × Scope.Change))
    (hc : ∀ entry ∈ changes, entry.2.Valued) :
    Frames.Valued ((Scope.new start).1.changeAll changes).bindings := by
  rw [(changeAll_represents changes _ _ (represents_new start)).bindings]
  apply Frames.Valued.changeAll
  · exact List.forall_mem_singleton.mpr (List.forall_mem_nil _)
  · exact List.forall_mem_map.mpr hc

namespace Context

variable {σ : Type}

theorem lookupBound_eq_ok_iff (c : Context σ) (name found : Value) :
    c.lookupBound name = .ok found ↔ c.scope.lookup? name = some found := by
  rw [lookupBound]
  cases c.scope.lookup? name <;> simp

/-- How the reads of a name are related, on every value as chain, and what an update does to the
strict ones. The update of a name shows in its look-up, unless a frame in front of the one that it
goes to binds the name, and then the look-up finds the empty list. -/
theorem strict_reads_differ_by_empty_values (c : Context σ) (name value : Value) (heap : Heap) :
    let s := c.scope
    let updated := (c.set name value heap).1.scope
    (s.binds name = true ↔ (s.lookup? name).isSome = true) ∧
      ((s.lookup? name).isSome = true ↔ ∃ found, c.lookupBound name = .ok found) ∧
      (∀ found, s.lookup? name = some found → found ≠ .nil → s.get name = found) ∧
      (s.lookup? name = none → s.get name = .nil) ∧
      ((∀ frame ∈ s.bindings, frame.lookup? name ≠ some .nil) →
        s.get name = (s.lookup? name).getD .nil) ∧
      (∀ (start : Heap) (changes : List (Heap × Scope.Change)),
        (∀ entry ∈ changes, entry.2.Valued) →
        ∀ any, ((Scope.new start).1.changeAll changes).get any =
          (((Scope.new start).1.changeAll changes).lookup? any).getD .nil) ∧
      updated.binds name = true ∧
      updated.lookup? name =
        some (if Frames.binds (s.bindings.take (s.target name)) name then .nil else value) ∧
      ∀ other, name.equal other = false →
        updated.lookup? other = s.lookup? other ∧ updated.binds other = s.binds other := by
  intro s updated
  have hl : updated.lookup? name =
      some (if Frames.binds (s.bindings.take (s.target name)) name then .nil else value) := by
    rw [Scope.target_eq_owner]
    exact s.lookup?_set_same name value heap
  refine ⟨?_, ?_, ?_, ?_, ?_, ?_, ?_, hl, ?_⟩
  · rw [Scope.binds_eq_isSome]
  · simp only [lookupBound_eq_ok_iff, Option.isSome_iff_exists, s]
  · rw [Scope.get_eq, Scope.lookup?_eq]
    intro found hf hn
    exact Frames.get_eq_of_lookup? hf hn
  · rw [Scope.get_eq, Scope.lookup?_eq]
    exact Frames.get_eq_nil_of_lookup?
  · rw [Scope.get_eq, Scope.lookup?_eq]
    exact Frames.get_eq_lookup?
  · intro start changes hc any
    have hv := Scope.valued_changeAll start changes hc
    rw [Scope.get_eq, Scope.lookup?_eq]
    exact Frames.get_eq_lookup? fun frame hm => (hv frame hm).lookup?_ne any
  · rw [Scope.binds_eq_isSome, hl]
    rfl
  · intro other hn
    have ho : updated.lookup? other = s.lookup? other := s.lookup?_set_other value heap hn
    rw [Scope.binds_eq_isSome, Scope.binds_eq_isSome, ho]
    exact ⟨rfl, rfl⟩

end Context

end LispContext
