import LispContext.Proofs.Scope.Recursion
import LispContext.Scope.Frames

/-!
# How chains grow

An update puts one binding in front of one frame. A list of such writes makes a chain grow: each
frame has in front of it the bindings that were written to it, newest first, and behind them it is
what it was. What no write has reached is the same node. Popping forgets the writes to the innermost
frame, and the others move up by one.
-/
namespace LispContext

/-- An update with the frame that it goes to, counted from the innermost. -/
structure Write where
  frame : Nat
  name : Value
  value : Value
  deriving DecidableEq, Repr

namespace Write

def innermost? (w : Write) : Option (Value × Value) :=
  if w.frame = 0 then some (w.name, w.value) else none

/-- The write as it is seen from outside the innermost frame. -/
def outward? (w : Write) : Option Write :=
  if w.frame = 0 then none else some { w with frame := w.frame - 1 }

/-- The bindings that writes put in front of the innermost frame, newest first. -/
def toInnermost (writes : List Write) : Frame := (writes.filterMap innermost?).reverse

def outward (writes : List Write) : List Write := writes.filterMap outward?

@[simp] theorem outward_nil : outward [] = [] := rfl

@[simp] theorem toInnermost_append (first later : List Write) :
    toInnermost (first ++ later) = toInnermost later ++ toInnermost first := by
  simp [toInnermost]

@[simp] theorem outward_append (first later : List Write) :
    outward (first ++ later) = outward first ++ outward later := by
  simp [outward]

@[simp] theorem toInnermost_zero (name value : Value) :
    toInnermost [⟨0, name, value⟩] = [(name, value)] := rfl

@[simp] theorem outward_zero (name value : Value) : outward [⟨0, name, value⟩] = [] := rfl

@[simp] theorem toInnermost_succ (frame : Nat) (name value : Value) :
    toInnermost [⟨frame + 1, name, value⟩] = [] := rfl

@[simp] theorem outward_succ (frame : Nat) (name value : Value) :
    outward [⟨frame + 1, name, value⟩] = [⟨frame, name, value⟩] := rfl

/-- Every write is either to the innermost frame or to one behind it. -/
theorem length_split (writes : List Write) :
    (toInnermost writes).length + (outward writes).length = writes.length := by
  induction writes with
  | nil => rfl
  | cons w later ih =>
    obtain ⟨frame, name, value⟩ := w
    rw [← List.singleton_append, toInnermost_append, outward_append]
    cases frame with
    | zero => simp; omega
    | succ frame => simp; omega

end Write

namespace Value

/-- The bindings stand in front of the old frame, in pairs of their own. -/
inductive Fronted : Frame → Value → Value → Prop
  | none (frame : Value) : Fronted [] frame frame
  | binding (link node : Nat) (name value : Value) {bindings : Frame} {frame grown : Value} :
    Fronted bindings frame grown →
    Fronted ((name, value) :: bindings) frame (pair link (pair node name value) grown)

theorem Fronted.trans {first later : Frame} {a b c : Value} (h : Fronted first a b)
    (h' : Fronted later b c) : Fronted (later ++ first) a c := by
  induction h' with
  | none frame => exact h
  | binding link node name value _ ih => exact .binding link node name value (ih h)

theorem Fronted.size_le {bindings : Frame} {frame grown : Value}
    (h : Fronted bindings frame grown) : frame.size + bindings.length ≤ grown.size := by
  induction h with
  | none frame => simp
  | binding link node name value _ ih =>
    simp only [List.length_cons, size]
    omega

/-- The writes have made the one chain into the other. A write behind the last frame of a chain that
is no proper list makes a frame in front of the ending. -/
inductive Grown : List Write → Value → Value → Prop
  | same (chain : Value) : Grown [] chain chain
  | frame (node node' : Nat) {writes : List Write} {frame frame' outer outer' : Value} :
    writes ≠ [] → Fronted (Write.toInnermost writes) frame frame' →
    Grown (Write.outward writes) outer outer' →
    Grown writes (pair node frame outer) (pair node' frame' outer')
  | ending (node' : Nat) {writes : List Write} {chain frame' outer' : Value} :
    writes ≠ [] → chain.isPair = false → Fronted (Write.toInnermost writes) nil frame' →
    Grown (Write.outward writes) chain outer' →
    Grown writes chain (pair node' frame' outer')

/-- Without a write the chain is the same node. -/
theorem Grown.eq {chain chain' : Value} (h : Grown [] chain chain') : chain = chain' := by
  cases h with
  | same => rfl
  | frame _ _ hne _ _ => exact absurd rfl hne
  | ending _ hne _ _ _ => exact absurd rfl hne

/-- Writes after writes. -/
theorem Grown.trans {first later : List Write} {a b c : Value} (h : Grown first a b)
    (h' : Grown later b c) : Grown (first ++ later) a c := by
  induction h generalizing later c with
  | same => exact h'
  | frame node node' hne hf ho ih =>
    cases h' with
    | same => simpa using Grown.frame node node' hne hf ho
    | frame _ node'' _ hf' ho' =>
      refine .frame node node'' (by simp [hne]) ?_ ?_
      · rw [Write.toInnermost_append]
        exact hf.trans hf'
      · rw [Write.outward_append]
        exact ih ho'
    | ending _ _ hp _ _ => cases hp
  | ending node' hne hp hf ho ih =>
    -- The first writes have made a frame, so there is none to be made by the later ones.
    cases h' with
    | same => simpa using Grown.ending node' hne hp hf ho
    | frame _ node'' _ hf' ho' =>
      refine .ending node'' (by simp [hne]) hp ?_ ?_
      · rw [Write.toInnermost_append]
        exact hf.trans hf'
      · rw [Write.outward_append]
        exact ih ho'
    | ending _ _ hp' _ _ => cases hp'

/-- Every write makes the chain larger. -/
theorem Grown.size_le {writes : List Write} {chain chain' : Value} (h : Grown writes chain chain') :
    chain.size + writes.length ≤ chain'.size := by
  induction h with
  | same => simp
  | @frame _ _ writes _ _ _ _ _ hf _ ih =>
    have hl := Write.length_split writes
    have hs := hf.size_le
    simp only [size]
    omega
  | @ending _ writes _ _ _ _ _ hf _ ih =>
    have hl := Write.length_split writes
    have hs := hf.size_le
    simp only [size] at hs ⊢
    omega

/-- A chain that was written to is another chain than before. -/
theorem Grown.eq_iff {writes : List Write} {chain chain' : Value} (h : Grown writes chain chain') :
    chain' = chain ↔ writes = [] := by
  constructor
  · rintro rfl
    have hs := h.size_le
    exact List.length_eq_zero_iff.mp (by omega)
  · rintro rfl
    exact h.eq.symm

end Value

namespace Scope

/-- The frame that an update of a chain goes to. Where there is none, it will be the one after the
last. -/
def targetIn (name : Value) : Value → Nat
  | .pair _ frame outer => if takes name frame outer then 0 else targetIn name outer + 1
  | _ => 0

def target (s : Scope) (name : Value) : Nat := targetIn name s.chain

def Grown (writes : List Write) (s t : Scope) : Prop := Value.Grown writes s.chain t.chain

/-- An update is one write to its target. -/
theorem grown_setIn (name value chain : Value) (heap : Heap) :
    Value.Grown [⟨targetIn name chain, name, value⟩] chain (setIn name value chain heap).1 := by
  induction chain with
  | nil => exact .ending _ (by simp) rfl (.binding _ _ name value (.none _)) (.same _)
  | atom => exact .ending _ (by simp) rfl (.binding _ _ name value (.none _)) (.same _)
  | pair node frame outer _ ih =>
    cases h : takes name frame outer with
    | true =>
      rw [setIn_pair_of_takes _ _ _ _ _ _ h, targetIn, if_pos h]
      exact .frame node _ (by simp) (.binding _ _ name value (.none _)) (.same _)
    | false =>
      rw [setIn_pair_of_passes _ _ _ _ _ _ h, targetIn, h]
      exact .frame node _ (by simp) (.none frame) ih

theorem grown_set (s : Scope) (name value : Value) (heap : Heap) :
    Grown [⟨s.target name, name, value⟩] s (s.set name value heap).1 := by
  rw [set_eq]
  exact grown_setIn name value s.chain heap

/-- The scope is the same, node for node, exactly if nothing was written. -/
theorem Grown.eq_iff {writes : List Write} {s t : Scope} (h : Grown writes s t) :
    t = s ↔ writes = [] := by
  rw [← Value.Grown.eq_iff h]
  exact ⟨congrArg chain, congrArg mk⟩

/-- Popping takes the writes to the innermost frame away. Where there was no frame, it takes the
frame away that the writes have made. -/
theorem Grown.pop {writes : List Write} {s t : Scope} (h : Grown writes s t) :
    Grown (Write.outward writes) s.pop t.pop := by
  obtain ⟨chain⟩ := s
  obtain ⟨chain'⟩ := t
  cases h with
  | same => exact .same _
  | frame _ _ _ _ ho => exact ho
  | ending _ _ hp _ ho =>
    cases chain with
    | nil => exact ho
    | atom => exact ho
    | pair => cases hp

end Scope

end LispContext
