import LispContext.Value.List

/-!
Equality of contents. Atoms are equal when they have the same kind and payload, pairs when heads and
tails are; two appearances of one pair node are taken to be equal without a look inside. The
comparison works off a list of pairs of values still to be compared, so nesting costs no stack.

Beside it stands `Datum`, the tree that is left when the nodes are forgotten. Where every node has
one content, `equal` says that both sides are the same tree.

Names are compared by content, too, when a list is read as a table of bindings. A binding is an
element that is a pair: its head is the name, its tail the value. The first binding of a name
counts, and elements that are no pairs are skipped.
-/
namespace LispContext

namespace Value

/-- The total size of the left sides, which bounds the work that a comparison has before it. -/
def workSize : List (Value × Value) → Nat
  | [] => 0
  | sides :: work => sides.1.size + workSize work

def equalAll : List (Value × Value) → Bool
  | [] => true
  | (nil, nil) :: work => equalAll work
  | (atom _ a, atom _ b) :: work => if a = b then equalAll work else false
  | (pair node head tail, pair node' head' tail') :: work =>
    if node = node' then equalAll work else equalAll ((head, head') :: (tail, tail') :: work)
  | _ :: _ => false
termination_by work => workSize work
decreasing_by all_goals simp only [workSize, size]; omega

def equal (v w : Value) : Bool := equalAll [(v, w)]

@[simp] theorem equalAll_nil : equalAll [] = true := by simp [equalAll]

/-- Each pair of values is compared on its own. -/
theorem equalAll_cons (v w : Value) (work : List (Value × Value)) :
    equalAll ((v, w) :: work) = (equal v w && equalAll work) := by
  suffices h : ∀ (n : Nat) (front work : List (Value × Value)),
      workSize front ≤ n → equalAll (front ++ work) = (equalAll front && equalAll work) by
    exact h _ [(v, w)] work (Nat.le_refl _)
  intro n
  induction n with
  | zero =>
    intro front work bound
    match front with
    | [] => simp
    | (v, w) :: _ => have := v.size_pos; simp only [workSize] at bound; omega
  | succ n ih =>
    intro front work bound
    match front with
    | [] => simp
    | (v, w) :: front =>
      have positive := v.size_pos
      simp only [workSize] at bound
      have later := ih front work (by omega)
      cases v <;> cases w <;> simp only [List.cons_append, equalAll, Bool.false_and]
      · exact later
      · split
        · exact later
        · rfl
      · split
        · exact later
        · next _ head tail _ head' tail' _ =>
          exact ih ((head, head') :: (tail, tail') :: front) work
            (by simp only [size] at bound; simp only [workSize]; omega)

/-- The comparison by recursion on both sides. Pairs are equal if they are one node, or else if
their heads and their tails are equal. -/
theorem equal_eq (v w : Value) : equal v w =
    match v, w with
    | nil, nil => true
    | atom _ a, atom _ b => decide (a = b)
    | pair node head tail, pair node' head' tail' =>
      decide (node = node') || (equal head head' && equal tail tail')
    | _, _ => false := by
  rw [equal, equalAll.eq_def]
  cases v with
  | nil => cases w <;> simp
  | atom node a => cases w <;> simp
  | pair node head tail =>
    cases w with
    | nil => rfl
    | atom => rfl
    | pair node' head' tail' =>
      by_cases h : node = node'
      · simp [h]
      · simp [h, equalAll_cons]

@[simp] theorem equal_nil_nil : equal nil nil = true := equal_eq nil nil

@[simp] theorem equal_atom_atom (node node' : Nat) (a b : Atom) :
    equal (atom node a) (atom node' b) = decide (a = b) := equal_eq _ _

theorem equal_pair_pair (node node' : Nat) (head head' tail tail' : Value) :
    equal (pair node head tail) (pair node' head' tail') =
      (decide (node = node') || (equal head head' && equal tail tail')) := equal_eq _ _

@[simp] theorem equal_nil_atom (node : Nat) (a : Atom) : equal nil (atom node a) = false :=
  equal_eq _ _

@[simp] theorem equal_nil_pair (node : Nat) (head tail : Value) :
    equal nil (pair node head tail) = false := equal_eq _ _

@[simp] theorem equal_atom_nil (node : Nat) (a : Atom) : equal (atom node a) nil = false :=
  equal_eq _ _

@[simp] theorem equal_atom_pair (node node' : Nat) (a : Atom) (head tail : Value) :
    equal (atom node a) (pair node' head tail) = false := equal_eq _ _

@[simp] theorem equal_pair_nil (node : Nat) (head tail : Value) :
    equal (pair node head tail) nil = false := equal_eq _ _

@[simp] theorem equal_pair_atom (node node' : Nat) (head tail : Value) (a : Atom) :
    equal (pair node head tail) (atom node' a) = false := equal_eq _ _

@[simp] theorem equal_refl (v : Value) : equal v v = true := by cases v <;> simp [equal_pair_pair]

/-- It does not matter which value stands on which side. -/
theorem equal_comm (v w : Value) : v.equal w = w.equal v := by
  induction v generalizing w with
  | nil => cases w <;> simp
  | atom node content => cases w <;> simp [eq_comm]
  | pair node head tail ihh iht =>
    cases w with
    | nil => simp
    | atom => simp
    | pair node' head' tail' =>
      rw [equal_pair_pair, equal_pair_pair, ihh, iht, decide_eq_decide.mpr (eq_comm (a := node))]

end Value

inductive Datum where
  | nil
  | atom (content : Atom)
  | pair (head tail : Datum)
  deriving DecidableEq, Repr, Inhabited

namespace Value

/-- The tree that a value denotes, whatever nodes hold it. -/
def forget : Value → Datum
  | nil => .nil
  | atom _ content => .atom content
  | pair _ head tail => .pair head.forget tail.forget

@[simp] theorem forget_nil : nil.forget = .nil := rfl

@[simp] theorem forget_atom (node : Nat) (content : Atom) :
    (atom node content).forget = .atom content := rfl

@[simp] theorem forget_pair (node : Nat) (head tail : Value) :
    (pair node head tail).forget = .pair head.forget tail.forget := rfl

/-- Values that denote one tree are equal, whatever their nodes. -/
theorem equal_of_forget_eq {v w : Value} (same : v.forget = w.forget) : v.equal w = true := by
  induction v generalizing w with
  | nil => cases w <;> simp_all
  | atom node content => cases w <;> simp_all
  | pair node head tail ihHead ihTail =>
    cases w with
    | nil => simp at same
    | atom => simp at same
    | pair node' head' tail' =>
      simp only [forget_pair, Datum.pair.injEq] at same
      simp [equal_pair_pair, ihHead same.1, ihTail same.2]

def binding? (name : Value) : Value → Option Value
  | pair _ (pair node key value) rest =>
    if key.equal name then some (pair node key value) else binding? name rest
  | pair _ _ rest => binding? name rest
  | _ => none

/-- The value of the first binding of a name, and the empty list if there is none. So a name that is
bound to the empty list reads like one that is not bound. -/
def assoc (name list : Value) : Value :=
  match binding? name list with
  | some (pair _ _ value) => value
  | _ => nil

theorem binding?_pair_pair (name : Value) (cell node : Nat) (key value rest : Value) :
    binding? name (pair cell (pair node key value) rest) =
      if key.equal name then some (pair node key value) else binding? name rest := rfl

/-- What is found is a pair whose head equals the name. -/
theorem exists_of_binding?_eq_some {name list found : Value} (h : binding? name list = some found) :
    ∃ node key value, found = pair node key value ∧ key.equal name = true := by
  fun_induction binding? name list with
  | case1 _ node key value _ same => exact ⟨node, key, value, by simp_all, same⟩
  | case2 _ _ _ _ _ _ ih => exact ih h
  | case3 _ _ _ _ ih => exact ih h
  | case4 => simp at h

end Value

end LispContext
