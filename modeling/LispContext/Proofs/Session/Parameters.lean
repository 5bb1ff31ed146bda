import LispContext.Proofs.Scope.Growth
import LispContext.Proofs.Scope.Refinement
import LispContext.Proofs.Session.Balance
import LispContext.Proofs.Session.Trace
import LispContext.Session.StockHost

/-!
# How far parameters are local

An update goes to the nearest frame with a value other than the empty list for its name. So the
frame of a call keeps the updates of its parameters to itself as long as their values are not the
empty list, and a parameter whose value is the empty list counts as absent: its update goes on to
the caller. The caller finds its own chain again exactly if this has not happened.
-/
namespace LispContext

variable {σ : Type}

/-- Every update finds a value for its name in the frame, which has then one binding more. -/
def Frame.absorbs : Frame → List (Value × Value) → Bool
  | _, [] => true
  | frame, (name, value) :: updates =>
    frame.hasValue name && absorbs ((name, value) :: frame) updates

namespace Scope

/-- The updates in order, on whatever heaps, make the one scope into the other. -/
inductive Updated : List (Value × Value) → Scope → Scope → Prop
  | none (s : Scope) : Updated [] s s
  | set (name value : Value) (heap : Heap) {updates : List (Value × Value)} {s t : Scope} :
    Updated updates (s.set name value heap).1 t → Updated ((name, value) :: updates) s t

theorem Updated.trans {first later : List (Value × Value)} {s t u : Scope}
    (h : Updated first s t) (h' : Updated later t u) : Updated (first ++ later) s u := by
  induction h with
  | none => exact h'
  | set name value heap _ ih => exact .set name value heap (ih h')

theorem Updated.grown {updates : List (Value × Value)} {s t : Scope} (h : Updated updates s t) :
    ∃ writes, Grown writes s t := by
  induction h with
  | none => exact ⟨[], .same _⟩
  | @set name value heap _ s _ _ ih =>
    obtain ⟨writes, hw⟩ := ih
    exact ⟨_, (grown_set s name value heap).trans hw⟩

/-- Of the writes to a chain with a frame none goes behind the frame exactly if no chain is there or
the frame absorbs the updates. -/
theorem Updated.outward {updates : List (Value × Value)} {s t : Scope} (h : Updated updates s t)
    {node : Nat} {frame outer : Value} (hs : s.chain = .pair node frame outer) :
    ∃ writes, Grown writes s t ∧
      (Write.outward writes = [] ↔ outer = .nil ∨ frame.bindings.absorbs updates = true) := by
  induction h generalizing node frame outer with
  | none => exact ⟨[], .same _, by simp [Frame.absorbs]⟩
  | @set name value heap updates s t h ih =>
    have hg := grown_set s name value heap
    have ht := takes_eq name frame outer
    rw [target, hs, targetIn] at hg
    cases hv : takes name frame outer with
    | true =>
      have hn : (s.set name value heap).1.chain =
          .pair (heap.pairs + 2) (.pair (heap.pairs + 1) (.pair heap.pairs name value) frame)
            outer := by
        rw [set_eq, hs, setIn_pair_of_takes _ _ _ _ _ _ hv, install_chain]
      obtain ⟨writes, hw, hiff⟩ := ih hn
      rw [hv, if_pos rfl] at hg
      refine ⟨_, hg.trans hw, ?_⟩
      rw [Write.outward_append, Write.outward_zero, List.nil_append, hiff, Value.bindings_pair_pair,
        Frame.absorbs]
      rw [hv, eq_comm, Bool.or_eq_true, Value.isNil_iff] at ht
      cases ht with
      | inl hvalue => rw [hvalue, Bool.true_and]
      | inr hnil => simp [hnil]
    | false =>
      -- One update has passed the frame, and no later one can take it back.
      obtain ⟨writes, hw⟩ := h.grown
      rw [hv, if_neg (by simp)] at hg
      refine ⟨_, hg.trans hw, ?_⟩
      rw [hv, eq_comm, Bool.or_eq_false_iff, ← Bool.not_eq_true outer.isNil, Value.isNil_iff] at ht
      rw [Write.outward_append, Write.outward_succ]
      simp [Frame.absorbs, ht.1, ht.2]

/-- Behind a frame that is taken away the chain is the one before exactly if the frame has absorbed
the updates, or if there is no chain. -/
theorem Updated.pop_eq_iff {updates : List (Value × Value)} {s t : Scope} (h : Updated updates s t)
    {node : Nat} {frame outer : Value} (hs : s.chain = .pair node frame outer) :
    t.pop = ⟨outer⟩ ↔ outer = .nil ∨ frame.bindings.absorbs updates = true := by
  obtain ⟨writes, hw, hiff⟩ := h.outward hs
  have hp : s.pop = ⟨outer⟩ := by rw [pop, hs]
  rw [← hiff, ← hp]
  exact hw.pop.eq_iff

end Scope

def Script.isFlat : Script σ → Bool
  | done => true
  | work _ rest => rest.isFlat
  | request _ _ rest => rest.isFlat
  | call .. => false
  | give _ => true

namespace Session

variable [Host σ]

theorem updated_answer (s : Session σ) (r : Request σ) :
    Scope.Updated (updates (s.requestTrace r)) s.context.scope (s.answer r).2.context.scope := by
  cases r with
  | set name value => exact .set _ _ _ (.none _)
  | _ =>
    rw [s.answer_scope (by simp)]
    exact .none _

/-- What a body without calls does to the scope is what it sets, up to where the body ends. -/
theorem updated_runBody (script : Script σ) (h : script.isFlat = true) (s : Session σ) :
    Scope.Updated (updates (script.trace s)) s.context.scope
      (script.runBody s).session.context.scope := by
  induction script generalizing s with
  | done => exact .none _
  | give result => exact .none _
  | work step rest ih => exact ih h (s.withWorkspace (s.toWorkspace.perform step).2)
  | call => cases h
  | request r handling rest ih =>
    rw [Script.trace, Script.runBody, settle_context, updates_append]
    apply (s.updated_answer r).trans
    cases hr : handling.resume (s.answer r).1 (s.answer r).2 with
    | none => exact .none _
    | some t =>
      have ht := ih h t
      rwa [resume_context handling _ hr] at ht

/-- However a call on the current scope ends whose body makes no calls of its own, the caller finds
the chain again that it had before, node for node, exactly if that chain is the empty list or every
update in the body finds a value other than the empty list for its name in the frame of the call. -/
theorem valued_parameters_are_local (s : Session σ) (params args : Value) (body : Script σ)
    (h : body.isFlat = true) :
    let frame : Frame := (params.elements.zip args.elements).reverse
    let trace := s.traceInCalls .current params args body.trace 1
    (inCall .current params args body.runBody s).session.context.scope = s.context.scope ↔
      s.context.scope.chain = .nil ∨ frame.absorbs (updates trace) = true := by
  intro frame trace
  by_cases hf : s.context.callLimit ≤ s.context.callDepth
  · have ht : trace = [] := by simp [trace, traceInCalls, enter_eq, hf]
    rw [inCall_of_full _ _ _ _ _ hf, ht]
    simp [Frame.absorbs]
  · have ht : updates trace = updates (body.trace (s.inside .current params args)) := by
      simp [trace, traceInCalls, enter_eq, hf]
    have hu := updated_runBody body h (s.inside .current params args)
    have hb := hu.pop_eq_iff (Scope.push_chain s.context.scope params args s.heap)
    rw [inCall_of_open _ _ _ _ _ hf, leave_scope, ht]
    rwa [Scope.bindings_bindAll, Value.bindings_nil, List.append_nil] at hb

/-- A session with one empty frame, in which two lists of one atom were made. -/
def freshSession : Session StockHost where
  heap := ⟨3, 2⟩
  context := ⟨⟨.pair 0 .nil .nil⟩, {}, "interpreter", 1000, 0⟩

def paramX : Value := .pair 1 (.atom 0 (.symbol "x")) .nil

def setX : Script StockHost :=
  .request (.set (.atom (.symbol "x")) (.atom (.number 5))) {} .done

/-- With the argument four the update stays in the call. -/
theorem set_of_four_is_local :
    let four : Value := .pair 2 (.atom 1 (.number 4)) .nil
    setX.isFlat = true ∧
      (inCall .current paramX four setX.runBody freshSession).session.context.scope =
        freshSession.context.scope := by
  intro four
  have ha : Frame.absorbs (paramX.elements.zip four.elements).reverse
      (updates (freshSession.traceInCalls .current paramX four setX.trace 1)) = true := by
    decide +kernel
  exact ⟨rfl, (valued_parameters_are_local freshSession paramX four setX rfl).mpr (.inr ha)⟩

/-- It is not enough that the frame binds every name that is set. With the empty list as argument
the update of `x` goes to the frame of the caller. -/
theorem bound_parameters_are_not_always_local :
    ¬ ∀ (s : Session StockHost) (params args : Value) (body : Script StockHost),
      body.isFlat = true →
      (∀ update ∈ updates (s.traceInCalls .current params args body.trace 1),
        ∃ binding ∈ params.elements.zip args.elements, binding.1.equal update.1 = true) →
      (inCall .current params args body.runBody s).session.context.scope = s.context.scope := by
  intro h
  let empty : Value := .pair 2 .nil .nil
  have hu : updates (freshSession.traceInCalls .current paramX empty setX.trace 1) =
      [(.atom 2 (.symbol "x"), .atom 3 (.number 5))] := by decide +kernel
  have hb : ∀ update ∈ updates (freshSession.traceInCalls .current paramX empty setX.trace 1),
      ∃ binding ∈ paramX.elements.zip empty.elements, binding.1.equal update.1 = true := by
    rw [hu]
    simp [paramX, empty]
  let run := inCall .current paramX empty setX.runBody freshSession
  have hr : run.session.context.scope.bindings =
      [[(.atom 2 (.symbol "x"), .atom 3 (.number 5))]] := by decide +kernel
  have hs : run.session.context.scope = freshSession.context.scope :=
    h freshSession paramX empty setX rfl hb
  rw [hs] at hr
  cases hr

end Session

end LispContext
