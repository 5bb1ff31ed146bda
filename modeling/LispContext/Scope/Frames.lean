import LispContext.Scope.Basic

/-!
Scopes as plain lists: a list of frames, innermost first, each a list of names with values, most
recent first. The operations on these lists say what the operations on chains do, without nodes and
without sharing, and `Scope.bindings` reads a chain as such a list.
-/
namespace LispContext

/-- The bindings of a frame, most recent first. -/
abbrev Frame := List (Value × Value)

namespace Frame

def lookup? (frame : Frame) (name : Value) : Option Value :=
  (frame.find? fun binding => binding.1.equal name).map (·.2)

/-- The first value of a name, where it is not the empty list. -/
def value? (frame : Frame) (name : Value) : Option Value :=
  (frame.lookup? name).filter (!·.isNil)

/-- The binding in front hides all others of its name. -/
theorem lookup?_cons (key value : Value) (frame : Frame) (name : Value) :
    lookup? ((key, value) :: frame) name =
      if key.equal name then some value else frame.lookup? name := by
  cases h : key.equal name <;> simp [lookup?, h]

theorem lookup?_append (front back : Frame) (name : Value) :
    lookup? (front ++ back) name = (front.lookup? name).or (back.lookup? name) := by
  rw [lookup?, List.find?_append, Option.map_or]
  rfl

theorem lookup?_eq_none_iff (frame : Frame) (name : Value) :
    frame.lookup? name = none ↔ ∀ binding ∈ frame, binding.1.equal name = false := by
  rw [lookup?, Option.map_eq_none_iff, List.find?_eq_none]
  simp only [Bool.not_eq_true]

theorem value?_cons (key value : Value) (frame : Frame) (name : Value) :
    value? ((key, value) :: frame) name =
      if key.equal name then if value = .nil then none else some value
      else frame.value? name := by
  rw [value?, lookup?_cons]
  cases key.equal name with
  | false => rfl
  | true => cases value <;> rfl

end Frame

/-- Frames, innermost first. -/
abbrev Frames := List Frame

namespace Frames

def push (frames : Frames) (names args : List Value) : Frames := (names.zip args).reverse :: frames

def pop (frames : Frames) : Frames := frames.tail

def get (frames : Frames) (name : Value) : Value := (frames.findSome? (·.value? name)).getD .nil

def lookup? (frames : Frames) (name : Value) : Option Value := frames.findSome? (·.lookup? name)

def binds (frames : Frames) (name : Value) : Bool :=
  frames.any fun frame => (frame.lookup? name).isSome

/-- A name is bound exactly if looking it up finds a value. -/
theorem binds_eq_isSome (frames : Frames) (name : Value) :
    frames.binds name = (frames.lookup? name).isSome := by
  simp [binds, lookup?, List.isSome_findSome?]

/-- A new binding in front of the innermost frame with a value for the name, or else of the
outermost frame, or else in a frame of its own. -/
def set (name value : Value) : Frames → Frames
  | [] => [[(name, value)]]
  | [frame] => [(name, value) :: frame]
  | frame :: outer =>
    if (frame.value? name).isSome then ((name, value) :: frame) :: outer
    else frame :: set name value outer

end Frames

namespace Value

/-- The elements of a list that are pairs, each as a name and a value. -/
def bindings (list : Value) : Frame :=
  list.elements.filterMap fun entry => match entry with
    | pair _ key value => some (key, value)
    | _ => none

@[simp] theorem bindings_nil : nil.bindings = [] := rfl

@[simp] theorem bindings_pair_pair (cell node : Nat) (key value rest : Value) :
    (pair cell (pair node key value) rest).bindings = (key, value) :: rest.bindings := by
  simp [bindings]

@[simp] theorem bindings_pair_nil (cell : Nat) (rest : Value) :
    (pair cell nil rest).bindings = rest.bindings := by simp [bindings]

@[simp] theorem bindings_pair_atom (cell node : Nat) (content : Atom) (rest : Value) :
    (pair cell (atom node content) rest).bindings = rest.bindings := by simp [bindings]

/-- The first binding in a chain is the first in the list of its bindings. -/
theorem lookup?_bindings (name list : Value) :
    list.bindings.lookup? name = (binding? name list).bind tail? := by
  fun_induction binding? name list with
  | case1 _ _ _ _ _ same => simp [Frame.lookup?, same]
  | case2 _ _ _ _ _ differs ih => simpa [Frame.lookup?, differs] using ih
  | case3 _ entry _ other ih =>
    cases entry with
    | nil => simpa using ih
    | atom => simpa using ih
    | pair node key value => exact absurd rfl (other node key value)
  | case4 list other =>
    cases list with
    | nil => rfl
    | atom => rfl
    | pair _ _ _ => simp_all

/-- A look-up in a table reads its bindings. -/
theorem assoc_eq (name list : Value) : assoc name list = (list.bindings.lookup? name).getD nil := by
  rw [lookup?_bindings, assoc]
  split
  · next h => simp [h]
  · next other =>
    cases h : binding? name list with
    | none => rfl
    | some found =>
      obtain ⟨node, key, value, rfl, _⟩ := exists_of_binding?_eq_some h
      exact absurd h (other _ _ _)

/-- A look-up in a table finds the empty list exactly if the first value is no other. -/
theorem assoc_eq_value? (name list : Value) :
    assoc name list = (list.bindings.value? name).getD nil := by
  rw [assoc_eq, Frame.value?]
  cases list.bindings.lookup? name with
  | none => rfl
  | some value => cases value <;> rfl

end Value

namespace Scope

def bindings (s : Scope) : Frames := s.frames.map Value.bindings

theorem bindings_nil : (Scope.mk .nil).bindings = [] := rfl

@[simp] theorem bindings_pair (node : Nat) (frame outer : Value) :
    (Scope.mk (.pair node frame outer)).bindings = frame.bindings :: (Scope.mk outer).bindings := by
  simp [bindings, frames]

theorem getIn_eq (name chain : Value) : getIn name chain = (Scope.mk chain).bindings.get name := by
  induction chain with
  | nil => rfl
  | atom => rfl
  | pair node frame outer _ ih =>
    rw [getIn, ih, bindings_pair, Value.assoc_eq_value?]
    simp only [Frames.get, List.findSome?_cons]
    cases h : frame.bindings.value? name with
    | none => rfl
    | some value =>
      have := Option.mem_filter_iff.1 h
      cases value <;> simp_all [Value.isNil]

/-- Reading a name reads the bindings of the frames. -/
theorem get_eq (s : Scope) (name : Value) : s.get name = s.bindings.get name :=
  getIn_eq name s.chain

theorem bindingIn?_eq (name chain : Value) :
    (bindingIn? name chain).bind Value.tail? = (Scope.mk chain).bindings.lookup? name := by
  induction chain with
  | nil => rfl
  | atom => rfl
  | pair node frame outer _ ih =>
    rw [bindingIn?, bindings_pair]
    simp only [Frames.lookup?, List.findSome?_cons, Value.lookup?_bindings]
    cases h : Value.binding? name frame with
    | none => simpa [Frames.lookup?] using ih
    | some found =>
      obtain ⟨_, _, _, rfl, _⟩ := Value.exists_of_binding?_eq_some h
      rfl

/-- Looking a name up reads the bindings of the frames. -/
theorem lookup?_eq (s : Scope) (name : Value) : s.lookup? name = s.bindings.lookup? name :=
  bindingIn?_eq name s.chain

theorem bindsIn_eq (name chain : Value) :
    bindsIn name chain = (Scope.mk chain).bindings.binds name := by
  induction chain with
  | nil => rfl
  | atom => rfl
  | pair node frame outer _ ih =>
    rw [bindsIn, ih, bindings_pair]
    simp only [Frames.binds, List.any_cons, Value.lookup?_bindings]
    cases h : Value.binding? name frame with
    | none => simp
    | some found =>
      obtain ⟨_, _, _, rfl, _⟩ := Value.exists_of_binding?_eq_some h
      simp

/-- Asking whether a name is bound reads the bindings of the frames. -/
theorem binds_eq (s : Scope) (name : Value) : s.binds name = s.bindings.binds name :=
  bindsIn_eq name s.chain

theorem binds_eq_isSome (s : Scope) (name : Value) : s.binds name = (s.lookup? name).isSome := by
  rw [binds_eq, lookup?_eq, Frames.binds_eq_isSome]

/-- There are as many lists of bindings as frames. -/
@[simp] theorem length_bindings (s : Scope) : s.bindings.length = s.depth := by simp [bindings]

/-- Popping a frame takes its bindings away. -/
@[simp] theorem bindings_pop (s : Scope) : s.pop.bindings = s.bindings.pop := by
  obtain ⟨chain⟩ := s
  cases chain <;> simp [pop, Frames.pop, bindings, frames]

theorem bindings_popMany (times : Nat) (s : Scope) :
    (popMany times s).bindings = s.bindings.drop times := by
  induction times generalizing s with
  | zero => rfl
  | succ times ih => rw [popMany_succ, ih, bindings_pop, Frames.pop, List.drop_tail]

end Scope

end LispContext
