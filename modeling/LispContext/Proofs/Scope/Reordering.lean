import LispContext.Proofs.Scope.Refinement
import LispContext.Proofs.Sharing.Memory

/-!
# Updates in another order

Which frame takes an update of a name depends only on the values that the frames give to this name.
So updates of two names go to the same frames in either order. If both go to one frame, their
bindings stand there in another order, which no read can tell. A second update of one name goes to
the frame of the first one, as long as the first value was not the empty list, and hides it.
-/
namespace LispContext

namespace Frames

theorem set_ne_nil (name value : Value) (frames : Frames) : set name value frames ≠ [] := by
  cases frames with
  | nil => exact List.cons_ne_nil _ _
  | cons frame outer =>
    cases outer with
    | nil => exact List.cons_ne_nil _ _
    | cons next outer =>
      rw [set_cons_cons]
      split <;> exact List.cons_ne_nil _ _

/-- A frame in front of others takes the update or passes it on. -/
theorem set_cons_of_ne_nil (name value : Value) (frame : Frame) {outer : Frames} (h : outer ≠ []) :
    set name value (frame :: outer) =
      if frame.hasValue name then ((name, value) :: frame) :: outer
      else frame :: set name value outer := by
  obtain ⟨next, outer, rfl⟩ := List.exists_cons_of_ne_nil h
  exact set_cons_cons name value frame next outer

theorem length_set (name value : Value) (frames : Frames) :
    (set name value frames).length = max frames.length 1 := by
  induction frames with
  | nil => rfl
  | cons frame outer ih =>
    by_cases ho : outer = []
    · subst ho
      rfl
    · have hl := List.length_pos_iff.mpr ho
      rw [set_cons_of_ne_nil name value frame ho]
      split
      · simp
      · simp only [List.length_cons, ih]
        omega

def column (frames : Frames) (name : Value) : List (Option Value) := frames.map (·.lookup? name)

theorem get_eq_column (frames : Frames) (name : Value) :
    frames.get name =
      ((frames.column name).findSome? fun found => found.filter (!·.isNil)).getD .nil := by
  rw [column, List.findSome?_map]
  rfl

theorem lookup?_eq_column (frames : Frames) (name : Value) :
    frames.lookup? name = (frames.column name).findSome? id := by
  rw [column, List.findSome?_map]
  rfl

/-- Two bindings in one frame may be swapped, for every name that is not the name of both. -/
theorem lookup?_swap {first second name : Value} (v w : Value) (frame : Frame)
    (h : ¬ (first.equal name = true ∧ second.equal name = true)) :
    Frame.lookup? ((second, w) :: (first, v) :: frame) name =
      Frame.lookup? ((first, v) :: (second, w) :: frame) name := by
  simp only [Frame.lookup?_cons]
  cases hf : first.equal name with
  | false => rfl
  | true =>
    have hs : second.equal name = false := Bool.eq_false_iff.mpr fun hs => h ⟨hf, hs⟩
    rw [hs]
    rfl

/-- A binding hides an earlier one of the same name from every look-up. -/
theorem lookup?_hide {name other : Value} (v w : Value) (frame : Frame) :
    Frame.lookup? ((name, w) :: (name, v) :: frame) other =
      Frame.lookup? ((name, w) :: frame) other := by
  simp only [Frame.lookup?_cons]
  cases name.equal other <;> rfl

/-- Updates of two different names leave the same in each frame in either order. -/
theorem column_set_comm {first second name : Value} (v w : Value) (frames : Frames)
    (hd : first.equal second = false)
    (hn : ¬ (first.equal name = true ∧ second.equal name = true)) :
    column (set second w (set first v frames)) name =
      column (set first v (set second w frames)) name := by
  have hd' : second.equal first = false := by rw [Value.equal_comm, hd]
  induction frames with
  | nil => simpa [set, column] using lookup?_swap v w [] hn
  | cons frame outer ih =>
    by_cases ho : outer = []
    · subst ho
      simpa [set, column] using lookup?_swap v w frame hn
    · -- each name goes to this frame or behind it, whether the other one has been updated or not
      have hv := set_ne_nil first v outer
      have hw := set_ne_nil second w outer
      have hfirst := Frame.hasValue_cons_other w frame hd'
      have hsecond := Frame.hasValue_cons_other v frame hd
      rw [set_cons_of_ne_nil first v frame ho, set_cons_of_ne_nil second w frame ho]
      cases hf : frame.hasValue first with
      | false =>
        cases hs : frame.hasValue second with
        | false => simpa [set_cons_of_ne_nil, hv, hw, hf, hs, column] using ih
        | true => simp [set_cons_of_ne_nil, ho, hv, hf, hs, hfirst]
      | true =>
        cases hs : frame.hasValue second with
        | false => simp [set_cons_of_ne_nil, ho, hw, hf, hs, hsecond]
        | true =>
          simpa [set_cons_of_ne_nil, ho, hf, hs, hfirst, hsecond, column] using
            lookup?_swap v w frame hn

/-- After an update to a value other than the empty list, a further update of the name leaves the
same in each frame as if it were the only one. -/
theorem column_set_set {name other v : Value} (w : Value) (frames : Frames) (hv : v ≠ .nil) :
    column (set name w (set name v frames)) other = column (set name w frames) other := by
  induction frames with
  | nil => simpa [set, column] using lookup?_hide v w []
  | cons frame outer ih =>
    by_cases ho : outer = []
    · subst ho
      simpa [set, column] using lookup?_hide v w frame
    · have hvalue := Frame.hasValue_cons_same name frame hv
      rw [set_cons_of_ne_nil name v frame ho, set_cons_of_ne_nil name w frame ho]
      cases hf : frame.hasValue name with
      | false => simpa [set_cons_of_ne_nil, set_ne_nil name v outer, hf, column] using ih
      | true => simpa [set_cons_of_ne_nil, ho, hvalue, column] using lookup?_hide v w frame

end Frames

namespace Scope

/-- The scopes cannot be told apart by their depth or by reading names of the given kind, also after
any number of pops. -/
structure ReadAlike (kind : Value → Prop) (s t : Scope) : Prop where
  depth : s.depth = t.depth
  get : ∀ pops name, kind name → (popMany pops s).get name = (popMany pops t).get name
  lookup? : ∀ pops name, kind name → (popMany pops s).lookup? name = (popMany pops t).lookup? name
  binds : ∀ pops name, kind name → (popMany pops s).binds name = (popMany pops t).binds name

/-- Reads see nothing of a scope but its columns. -/
theorem readAlike_of_columns {kind : Value → Prop} {s t : Scope}
    (hl : s.bindings.length = t.bindings.length)
    (hc : ∀ name, kind name → s.bindings.column name = t.bindings.column name) :
    ReadAlike kind s t := by
  have hp : ∀ pops name, kind name →
      (popMany pops s).bindings.column name = (popMany pops t).bindings.column name := by
    intro pops name hk
    simp only [bindings_popMany, Frames.column, List.map_drop]
    exact congrArg (List.drop pops) (hc name hk)
  have hlookup : ∀ pops name, kind name →
      (popMany pops s).lookup? name = (popMany pops t).lookup? name := by
    intro pops name hk
    rw [lookup?_eq, lookup?_eq, Frames.lookup?_eq_column, Frames.lookup?_eq_column,
      hp pops name hk]
  constructor
  · rw [← length_bindings, hl, length_bindings]
  · intro pops name hk
    rw [get_eq, get_eq, Frames.get_eq_column, Frames.get_eq_column, hp pops name hk]
  · exact hlookup
  · intro pops name hk
    rw [binds_eq_isSome, binds_eq_isSome, hlookup pops name hk]

theorem bindings_set_of_isList {s : Scope} (h : s.chain.isList = true) (name value : Value)
    (heap : Heap) : (s.set name value heap).1.bindings = Frames.set name value s.bindings := by
  rw [bindings_set s name value heap h, Frames.set_eq_assign]

theorem isList_set {s : Scope} (h : s.chain.isList = true) (name value : Value) (heap : Heap) :
    (s.set name value heap).1.chain.isList = true := by
  rwa [set_eq, Value.isList, rest_setIn]

/-- On a proper chain, updates of two different names may be made in either order, and an update of
a name to a value other than the empty list may be left out in front of another one of this name. No
read tells the difference, after any number of pops, and whatever is allocated in between. The names
that are updated and read are recorded in one memory, as all values of a run are: of such a name
only one content is known, so it cannot be equal to both of the names that are updated. -/
theorem updates_commute_and_overwrite (m : Memory) (s : Scope) (h : s.chain.isList = true)
    {first second : Value} (hf : first.RecordedIn m) (hs : second.RecordedIn m) (v w : Value)
    (heap₁ heap₂ heap₃ heap₄ : Heap) :
    (first.equal second = false →
      ReadAlike (·.RecordedIn m) ((s.set first v heap₁).1.set second w heap₂).1
        ((s.set second w heap₃).1.set first v heap₄).1) ∧
      (v ≠ .nil →
        ReadAlike (fun _ => True) ((s.set first v heap₁).1.set first w heap₂).1
          (s.set first w heap₃).1) := by
  constructor
  · intro hd
    apply readAlike_of_columns
    · simp only [bindings_set_of_isList, h, isList_set, Frames.length_set]
    · intro name hn
      simp only [bindings_set_of_isList, h, isList_set]
      apply Frames.column_set_comm v w s.bindings hd
      rintro ⟨hfn, hsn⟩
      have hsame : first.forget = second.forget := by
        rw [(Value.equal_iff_forget hf hn).mp hfn, (Value.equal_iff_forget hs hn).mp hsn]
      rw [Value.equal_of_forget_eq hsame] at hd
      cases hd
  · intro hv
    apply readAlike_of_columns
    · simp only [bindings_set_of_isList, h, isList_set, Frames.length_set]
      omega
    · intro name _
      simp only [bindings_set_of_isList, h, isList_set]
      exact Frames.column_set_set w s.bindings hv

/-- Two names, of which the inner frame binds the first to the empty list. Both updates go to the
outer frame, and stand there in the order in which they were made. -/
theorem updates_commute_behind_empty_value :
    let m : Memory := ⟨[], [.symbol "x", .symbol "y"]⟩
    let x : Value := .atom 0 (.symbol "x")
    let y : Value := .atom 1 (.symbol "y")
    let five : Value := .atom 2 (.number 5)
    let s : Scope := ⟨.pair 3 (.pair 1 (.pair 0 x .nil) .nil) (.pair 2 .nil .nil)⟩
    let heap : Heap := ⟨4, 3⟩
    s.chain.isList = true ∧ x.RecordedIn m ∧ y.RecordedIn m ∧ x.equal y = false ∧ five ≠ .nil ∧
      ReadAlike (·.RecordedIn m) ((s.set x five heap).1.set y .nil (s.set x five heap).2).1
        ((s.set y .nil heap).1.set x five (s.set y .nil heap).2).1 ∧
      ReadAlike (fun _ => True) ((s.set x five heap).1.set x .nil (s.set x five heap).2).1
        (s.set x .nil heap).1 := by
  intro m x y five s heap
  have hx : x.RecordedIn m := rfl
  have hy : y.RecordedIn m := rfl
  have hd : x.equal y = false := by simp [x, y]
  have hcommute := updates_commute_and_overwrite m s rfl hx hy five .nil heap
    (s.set x five heap).2 heap (s.set y .nil heap).2
  exact ⟨rfl, hx, hy, hd, nofun, hcommute.1 hd, hcommute.2 nofun⟩

end Scope

end LispContext
