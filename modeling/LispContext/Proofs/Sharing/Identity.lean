import LispContext.Proofs.Sharing.RecordedMoments
import LispContext.Proofs.Sharing.StockHosts

/-!
# Identity and content

Nodes are numbered in the order in which they are given out, and a heap is the number of the next
pair and of the next atom. So a node that is given out now is none of those that are in use. What is
within reach at a moment of a run is recorded in one memory; there a node has one content, and the
comparison that stops at a common node finds equality of contents.
-/
namespace LispContext

variable {σ : Type}

inductive Allocation where
  | pair (head tail : Value)
  | atom (content : Atom)

namespace Heap

structure Until (heap later : Heap) : Prop where
  pairs : heap.pairs ≤ later.pairs
  atoms : heap.atoms ≤ later.atoms

def allocate (heap : Heap) : Allocation → Value × Heap
  | .pair head tail => heap.cons head tail
  | .atom content => heap.atom content

def allocateAll : List Allocation → Heap → List Value
  | [], _ => []
  | request :: requests, heap =>
    (heap.allocate request).1 :: allocateAll requests (heap.allocate request).2

theorem until_allocate (heap : Heap) (request : Allocation) :
    heap.Until (heap.allocate request).2 := by
  cases request with
  | pair => exact ⟨Nat.le_succ _, Nat.le_refl _⟩
  | atom => exact ⟨Nat.le_refl _, Nat.le_succ _⟩

end Heap

namespace Value

/-- The value itself, and the parts of its head and of its tail. -/
inductive PartOf (v : Value) : Value → Prop
  | whole : PartOf v v
  | head {node : Nat} {head tail : Value} : PartOf v head → PartOf v (pair node head tail)
  | tail {node : Nat} {head tail : Value} : PartOf v tail → PartOf v (pair node head tail)

/-- The node was given out before the heap came to where it is. -/
def OldOn (heap : Heap) : Value → Prop
  | nil => True
  | atom node _ => node < heap.atoms
  | pair node _ _ => node < heap.pairs

def NewOn (heap : Heap) : Value → Prop
  | nil => False
  | atom node _ => heap.atoms ≤ node
  | pair node _ _ => heap.pairs ≤ node

theorem sameNode_of_new_old {heap : Heap} {v w : Value} (hv : v.NewOn heap) (hw : w.OldOn heap) :
    v.sameNode w = false := by
  cases v with
  | nil => cases hv
  | atom node content =>
    cases w with
    | nil => rfl
    | atom node' content' => exact decide_eq_false (Nat.ne_of_gt (Nat.lt_of_lt_of_le hw hv))
    | pair => rfl
  | pair node head tail =>
    cases w with
    | nil => rfl
    | atom => rfl
    | pair node' head' tail' => exact decide_eq_false (Nat.ne_of_gt (Nat.lt_of_lt_of_le hw hv))

theorem NewOn.of_until {heap later : Heap} (h : heap.Until later) {v : Value}
    (hv : v.NewOn later) : v.NewOn heap := by
  cases v with
  | nil => exact hv
  | atom => exact Nat.le_trans h.atoms hv
  | pair => exact Nat.le_trans h.pairs hv

theorem sameNode_trans {u v w : Value} (h : u.sameNode v = true) (h' : v.sameNode w = true) :
    u.sameNode w = true := by
  cases u <;> cases v <;> cases w <;> simp_all [sameNode]

theorem RecordedIn.part {m : Memory} {v w : Value} (hp : v.PartOf w) (h : w.RecordedIn m) :
    v.RecordedIn m := by
  induction hp with
  | whole => exact h
  | head _ ih => exact ih h.2.1
  | tail _ ih => exact ih h.2.2

/-- What is recorded was given out. -/
theorem RecordedIn.oldOn {m : Memory} {v : Value} (h : v.RecordedIn m) : v.OldOn m.heap := by
  cases v with
  | nil => trivial
  | atom => exact (List.getElem?_eq_some_iff.mp h).1
  | pair => exact (List.getElem?_eq_some_iff.mp h.1).1

/-- Values that are one node have one content where both are recorded. -/
theorem RecordedIn.forget_eq_of_sameNode {m : Memory} {v w : Value} (hv : v.RecordedIn m)
    (hw : w.RecordedIn m) (h : v.sameNode w = true) : v.forget = w.forget := by
  cases v with
  | nil => cases w <;> simp_all [sameNode]
  | atom node content =>
    cases w with
    | nil => cases h
    | pair => cases h
    | atom node' content' =>
      cases of_decide_eq_true h
      rw [forget_atom, forget_atom, Option.some.inj (hv.symm.trans hw)]
  | pair node head tail =>
    cases w with
    | nil => cases h
    | atom => cases h
    | pair node' head' tail' =>
      cases of_decide_eq_true h
      exact Option.some.inj (hv.1.symm.trans hw.1)

end Value

namespace Heap

theorem newOn_allocate (heap : Heap) (request : Allocation) :
    (heap.allocate request).1.NewOn heap := by
  cases request <;> exact Nat.le_refl _

theorem oldOn_allocate (heap : Heap) (request : Allocation) :
    (heap.allocate request).1.OldOn (heap.allocate request).2 := by
  cases request <;> exact Nat.lt_succ_self _

theorem newOn_allocateAll (requests : List Allocation) (heap : Heap) :
    ∀ v ∈ allocateAll requests heap, v.NewOn heap := by
  induction requests generalizing heap with
  | nil => exact List.forall_mem_nil _
  | cons request requests ih =>
    refine List.forall_mem_cons.mpr ⟨heap.newOn_allocate request, ?_⟩
    exact fun v hv => (ih _ v hv).of_until (heap.until_allocate request)

/-- Each request gets a node of its own. -/
theorem pairwise_allocateAll (requests : List Allocation) (heap : Heap) :
    (allocateAll requests heap).Pairwise fun v w => v.sameNode w = false := by
  induction requests generalizing heap with
  | nil => exact .nil
  | cons request requests ih =>
    refine .cons ?_ (ih _)
    intro w hw
    rw [Value.sameNode_comm]
    exact Value.sameNode_of_new_old (newOn_allocateAll requests _ w hw)
      (heap.oldOn_allocate request)

end Heap

/-- A memory that grows never gives out fewer nodes. -/
theorem Memory.Grows.heap_until {m n : Memory} (h : m.Grows n) : m.heap.Until n.heap :=
  ⟨h.pairs.length_le, h.atoms.length_le⟩

/-- How identity, comparison and content are related for the values within reach, on the heap that
the next nodes come from. -/
structure Identified (heap : Heap) (reach : Value → Prop) : Prop where
  /-- A node has one content. -/
  oneContent : ∀ v w, reach v → reach w → v.sameNode w = true → v.forget = w.forget
  /-- Nodes that are given out from now on differ from all within reach, and from each other. -/
  fresh : ∀ later : Heap, heap.Until later → ∀ requests : List Allocation,
    let made := later.allocateAll requests
    (∀ new ∈ made, ∀ v, reach v → new.sameNode v = false) ∧
      made.Pairwise fun v w => v.sameNode w = false
  equal_iff : ∀ v w, reach v → reach w → (v.equal w = true ↔ v.forget = w.forget)
  equal_of_sameNode : ∀ v w, reach v → reach w → v.sameNode w = true → v.equal w = true
  equal_equivalence : Equivalence fun v w : Subtype reach => v.1.equal w.1 = true
  sameNode_equivalence : Equivalence fun v w : Subtype reach => v.1.sameNode w.1 = true

/-- What is recorded in one memory is identified by its nodes, on the heap of the memory. -/
theorem identified_of_recordedIn {m : Memory} {reach : Value → Prop}
    (h : ∀ v, reach v → v.RecordedIn m) : Identified m.heap reach where
  oneContent v w hv hw := (h v hv).forget_eq_of_sameNode (h w hw)
  fresh later hlater requests := by
    refine ⟨?_, Heap.pairwise_allocateAll requests later⟩
    intro new hnew v hv
    have hn := (Heap.newOn_allocateAll requests later new hnew).of_until hlater
    exact Value.sameNode_of_new_old hn (h v hv).oldOn
  equal_iff v w hv hw := Value.equal_iff_forget (h v hv) (h w hw)
  equal_of_sameNode v w hv hw hs :=
    Value.equal_of_forget_eq ((h v hv).forget_eq_of_sameNode (h w hw) hs)
  equal_equivalence := by
    refine ⟨fun v => v.1.equal_refl, fun {v w} hs => by rwa [Value.equal_comm], ?_⟩
    intro u v w huv hvw
    have hu := h u.1 u.2
    have hv := h v.1 v.2
    have hw := h w.1 w.2
    rw [Value.equal_iff_forget hu hv] at huv
    rw [Value.equal_iff_forget hv hw] at hvw
    exact Value.equal_of_forget_eq (huv.trans hvw)
  sameNode_equivalence :=
    ⟨fun v => v.1.sameNode_self, fun {v w} hs => by rwa [Value.sameNode_comm], Value.sameNode_trans⟩

def EvalError.value? : EvalError → Option Value
  | failure value => some value
  | unboundVariable name => some name
  | mismatch (.wrongType _ got) => some got
  | _ => none

theorem EvalError.RecordedIn.value? {m : Memory} {e : EvalError} (h : e.RecordedIn m) {v : Value}
    (hv : e.value? = some v) : v.RecordedIn m := by
  unfold EvalError.value? at hv
  split at hv
  · cases hv
    exact h
  · cases hv
    exact h
  · cases hv
    exact h
  · cases hv

namespace Moment

/-- The values that are at hand at a moment: stored values and scopes, the current scope, what the
objects hold, the scopes that open calls go back to, the arguments of calls that are being opened,
and what has just been the outcome. -/
inductive Keeps (holds : σ → Value → Prop) (moment : Moment σ) : Value → Prop
  | stored {name : String} {v : Value} :
    moment.session.values.get? name = some v → Keeps holds moment v
  | storedScope {name : String} {s : Scope} :
    moment.session.scopes.get? name = some s → Keeps holds moment s.chain
  | current : Keeps holds moment moment.session.context.scope.chain
  | object {name : String} {object : σ} {v : Value} :
    moment.session.context.hosts.get? name = some object → holds object v → Keeps holds moment v
  | caller {s : Scope} : .leaving (some s) ∈ moment.pending → Keeps holds moment s.chain
  | params {base : CallBase} {params args : Value} {times : Nat} {body : Script σ} :
    moment.task = .calls base params args times body → Keeps holds moment params
  | args {base : CallBase} {params args : Value} {times : Nat} {body : Script σ} :
    moment.task = .calls base params args times body → Keeps holds moment args
  | result {v : Value} : moment.task = .ended (.value v) → Keeps holds moment v
  | raised {cause : EvalError} {v : Value} :
    moment.task = .ended (.error cause) → cause.value? = some v → Keeps holds moment v

def InReach (holds : σ → Value → Prop) (moment : Moment σ) (v : Value) : Prop :=
  ∃ kept, moment.Keeps holds kept ∧ v.PartOf kept

variable {P : σ → Memory → Prop} {holds : σ → Value → Prop} {moment : Moment σ} {m : Memory}

theorem RecordedIn.keeps (hh : ∀ object m v, P object m → holds object v → v.RecordedIn m)
    (h : moment.RecordedIn P m) {v : Value} (hv : moment.Keeps holds v) : v.RecordedIn m := by
  obtain ⟨ht, hp, hs⟩ := h
  cases hv with
  | stored hv => exact hs.workspace.values _ _ hv
  | storedScope hv => exact hs.workspace.scopes _ _ hv
  | current => exact hs.context.scope
  | object ho hv => exact hh _ m v (hs.context.hosts _ _ ho) hv
  | caller hv => exact hp _ hv _ rfl
  | params hc =>
    rw [hc] at ht
    exact ht.1
  | args hc =>
    rw [hc] at ht
    exact ht.2.1
  | result hr =>
    rw [hr] at ht
    exact ht
  | raised hr hv =>
    rw [hr] at ht
    exact EvalError.RecordedIn.value? ht hv

theorem RecordedIn.identified (hh : ∀ object m v, P object m → holds object v → v.RecordedIn m)
    (h : moment.RecordedIn P m) : Identified moment.session.heap (moment.InReach holds) := by
  rw [h.session.workspace.heap]
  apply identified_of_recordedIn
  rintro v ⟨kept, hk, hp⟩
  exact (h.keeps hh hk).part hp

end Moment

namespace Session

/-- At every moment of the run of a program the values within reach have one content for each node,
so that comparing them, which does not look into a node that stands on both sides, is comparing
their contents. -/
theorem equal_is_equality_of_content [Host σ] {P : σ → Memory → Prop} {holds : σ → Value → Prop}
    (hk : Recording P) (hh : ∀ object m v, P object m → holds object v → v.RecordedIn m)
    (plan : SessionPlan σ) (hp : plan.Registers (MakesRecording P)) (program : Script σ)
    (hq : program.Registers (MakesRecording P)) :
    let moment (n : Nat) : Moment σ := (Moment.start program plan.start).after n
    (moment 0).Reaches ⟨.ended (.value .nil), [], (program.runProgram plan.start).2⟩ ∧
      (∀ n k, (moment n).session.heap.Until (moment (n + k)).session.heap) ∧
      ∀ n, Identified (moment n).session.heap ((moment n).InReach holds) := by
  intro moment
  obtain ⟨m, hm⟩ := plan.recordedIn_start hk hp
  have hstart : (moment 0).RecordedIn P m := ⟨hq, List.forall_mem_nil _, hm⟩
  refine ⟨Moment.reaches_runProgram program [] plan.start, ?_, ?_⟩
  · intro n k
    obtain ⟨n', _, hn⟩ := hstart.after hk n
    obtain ⟨k', hg, hl⟩ := hn.after hk k
    rw [← Moment.after_add] at hl
    have hearly : (moment n).session.heap = n'.heap := hn.session.workspace.heap
    have hlate : (moment (n + k)).session.heap = k'.heap := hl.session.workspace.heap
    rw [hearly, hlate]
    exact hg.heap_until
  · intro n
    obtain ⟨n', _, hn⟩ := hstart.after hk n
    exact hn.identified hh

end Session

namespace StockHost

inductive Holds : StockHost → Value → Prop
  | constant (value : Value) : Holds (constant value) value

theorem RecordedIn.holds (object : StockHost) (m : Memory) (v : Value) (h : object.RecordedIn m)
    (hv : object.Holds v) : v.RecordedIn m := by
  cases hv
  exact h

/-- A session with a global and an object, each with a list `((()))` of its own. -/
def boxPlan : SessionPlan StockHost where
  globals := [("x", .nest 2 .nil)]
  hosts := [("y", ⟨.nest 2 .nil, constant⟩)]

/-- Stores a list of one node, twice, before it is put into an object. -/
def filledBoxProgram : Script StockHost :=
  .work (.value (.define (.replicate 2 (.cons (.atom (.symbol "x")) .nil)) (some "v"))) boxProgram

/-- The two lists of the plan are equal and of different nodes. -/
theorem equal_is_equality_of_content_in_box :
    let start := Moment.start filledBoxProgram boxPlan.start
    let global : Value := .pair 1 (.pair 0 .nil .nil) .nil
    let held : Value := .pair 3 (.pair 2 .nil .nil) .nil
    Recording StockHost.RecordedIn ∧
      (∀ (object : StockHost) m v, object.RecordedIn m → object.Holds v → v.RecordedIn m) ∧
      boxPlan.Registers (MakesRecording StockHost.RecordedIn) ∧
      filledBoxProgram.Registers (MakesRecording StockHost.RecordedIn) ∧
      (start.InReach Holds global ∧ start.InReach Holds held ∧ global.sameNode held = false ∧
        global.equal held = true) ∧
      start.Reaches ⟨.ended (.value .nil), [], (filledBoxProgram.runProgram boxPlan.start).2⟩ ∧
      (∀ n k, (start.after n).session.heap.Until (start.after (n + k)).session.heap) ∧
      ∀ n, Identified (start.after n).session.heap ((start.after n).InReach Holds) := by
  intro start global held
  have hp : boxPlan.Registers (MakesRecording StockHost.RecordedIn) :=
    List.forall_mem_singleton.mpr makes_constant.recording
  have hq : filledBoxProgram.Registers (MakesRecording StockHost.RecordedIn) :=
    ⟨makes_constant.recording, trivial, ⟨trivial, trivial, trivial⟩, trivial⟩
  have hglobal : start.InReach Holds global := ⟨_, .current, .head (.head (.tail .whole))⟩
  have hy : start.session.context.hosts.get? "y" = some (constant held) := by decide
  have hheld : start.InReach Holds held := ⟨held, .object hy (.constant held), .whole⟩
  exact ⟨recording, RecordedIn.holds, hp, hq, ⟨hglobal, hheld, rfl, Value.equal_of_forget_eq rfl⟩,
    Session.equal_is_equality_of_content recording RecordedIn.holds boxPlan hp filledBoxProgram hq⟩

end StockHost

end LispContext
