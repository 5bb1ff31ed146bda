import LispContext.Proofs.Scope.Outline
import LispContext.Proofs.Session.Balance
import LispContext.Proofs.Session.Trace
import LispContext.Session.StockHost

/-!
# Updates pass through calls

An update of a name that no frame of a call binds goes past these frames to the caller. So a tree of
calls, left in whatever way, changes the caller's chain exactly as its updates do when they are made
in the caller one after the other.
-/
namespace LispContext

variable {σ : Type}

namespace Event

def onCurrent : Event → Bool
  | entered (.captured _) _ _ => false
  | _ => true

/-- The names that the frame of a call binds: those that are paired with an argument. -/
def bound : Event → List Value
  | entered _ params args => (params.elements.zip args.elements).map Prod.fst
  | _ => []

end Event

/-- No call is on a captured scope, and no name that is given a value is one that a frame binds. -/
structure Outward (trace : List Event) : Prop where
  current : ∀ event ∈ trace, event.onCurrent = true
  apart : ∀ event ∈ trace, ∀ key ∈ event.bound, ∀ update ∈ updates trace,
    key.equal update.1 = false

theorem Outward.append {first later : List Event} (h : Outward (first ++ later)) :
    Outward first ∧ Outward later := by
  obtain ⟨hc, ha⟩ := h
  simp only [List.forall_mem_append, updates_append] at hc ha
  refine ⟨⟨hc.1, ?_⟩, ⟨hc.2, ?_⟩⟩
  · exact fun event he key hk => (ha.1 event he key hk).1
  · exact fun event he key hk => (ha.2 event he key hk).2

/-- Around the trace of a body stand the opening and the closing of its call. -/
theorem Outward.entered {base : CallBase} {params args : Value} {inner : List Event}
    (h : Outward (.entered base params args :: (inner ++ [.left]))) :
    base = .current ∧ Outward inner ∧
      ∀ key ∈ (Event.entered base params args).bound, ∀ update ∈ updates inner,
        key.equal update.1 = false := by
  obtain ⟨hc, ha⟩ := h
  simp only [List.forall_mem_cons, List.forall_mem_append, updates_entered, updates_append,
    updates_left, updates_nil, List.append_nil] at hc ha
  refine ⟨?_, ⟨hc.2.1, ha.2.1⟩, ha.1⟩
  cases base with
  | current => rfl
  | captured name => cases hc.1

/-- A frame gives no value to names that it does not bind. -/
theorem hasValue_bindAll (base : CallBase) (params args name : Value) (heap : Heap)
    (h : ∀ key ∈ (Event.entered base params args).bound, key.equal name = false) :
    (Scope.bindAll params args .nil heap).1.bindings.hasValue name = false := by
  have hl : Frame.lookup? (params.elements.zip args.elements).reverse name = none := by
    rw [Frame.lookup?_eq_none_iff]
    intro binding hb
    exact h binding.1 (List.mem_map_of_mem (List.mem_reverse.mp hb))
  rw [Scope.bindings_bindAll, Value.bindings_nil, List.append_nil, Frame.hasValue, Frame.value?, hl]
  rfl

namespace Session

open Scope

/-- A body changes the chain exactly as its updates do, made one after the other on the chain that
the body finds. -/
def Transparent (run : Session σ → Run σ) (trace : Session σ → List Event) : Prop :=
  ∀ (s : Session σ) (heap : Heap), s.context.scope.chain ≠ .nil → Outward (trace s) →
    (run s).session.context.scope.chain.outline =
      (Setup.setAll (updates (trace s)) s.context.scope heap).1.chain.outline

/-- In the body the frame of the call stands in front of the caller's chain. The updates pass it,
and leaving the call takes it away. -/
theorem Transparent.succ {base : CallBase} {params args : Value} {body : Session σ → Run σ}
    {trace : Session σ → List Event} {times : Nat}
    (h : Transparent (inCalls base params args body times)
      (traceInCalls base params args trace times)) :
    Transparent (inCalls base params args body (times + 1))
      (traceInCalls base params args trace (times + 1)) := by
  intro s heap hc ho
  rw [inCalls_succ]
  by_cases hf : s.context.callLimit ≤ s.context.callDepth
  · rw [inCall_of_full _ _ _ _ _ hf]
    simp [traceInCalls, enter_eq, hf, Setup.setAll]
  · generalize hi : traceInCalls base params args trace times (s.inside base params args) = inner
    have ht : traceInCalls base params args trace (times + 1) s =
        .entered base params args :: (inner ++ [.left]) := by
      simp [traceInCalls, enter_eq, hf, hi]
    rw [inCall_of_open _ _ _ _ _ hf]
    rw [ht] at ho ⊢
    obtain ⟨rfl, hn, ha⟩ := ho.entered
    have hb := h (s.inside .current params args) heap (by simp) (hi ▸ hn)
    have hv : ∀ entry ∈ updates inner,
        (bindAll params args .nil s.heap).1.bindings.hasValue entry.1 = false :=
      fun entry he => hasValue_bindAll .current params args entry.1 s.heap
        fun key hk => ha key hk entry he
    have hp := Setup.outline_setAll_behind (updates inner) (bindAll params args .nil s.heap).2.pairs
      (bindAll params args .nil s.heap).1 s.context.scope.chain heap heap hc hv
    rw [hi] at hb
    simp only [updates_entered, updates_append, updates_left, updates_nil, List.append_nil]
    exact outline_pop _ (hb.trans hp)

theorem Transparent.inCalls {base : CallBase} {params args : Value} {body : Session σ → Run σ}
    {trace : Session σ → List Event} (h : Transparent body trace) (times : Nat) :
    Transparent (Session.inCalls base params args body times)
      (traceInCalls base params args trace times) := by
  induction times with
  | zero => exact h
  | succ times ih => exact ih.succ

theorem Transparent.call {body : Session σ → Run σ} {trace : Session σ → List Event}
    (h : Transparent body trace) (entry : Entry) (times : Nat) :
    Transparent (Session.call entry times body) (traceCall entry times trace) := by
  intro s heap hc ho
  exact h.inCalls times ((s.build entry.params).2.build entry.args).2 heap hc ho

/-- Behind a step the rest of the body goes on from the chain that the step has made. -/
theorem Transparent.settle {rest : Session σ → Run σ} {trace : Session σ → List Event}
    (h : Transparent rest trace) (handling : Handling) (outcome : Outcome)
    (record : Except EvalError Value → Place → Transcript → Transcript) :
    Transparent (Script.settle handling outcome record rest)
      fun s => (handling.resume outcome s).elim [] trace := by
  intro s heap hc ho
  simp only [settle_context] at ho ⊢
  cases hr : handling.resume outcome s with
  | none => rfl
  | some t =>
    have hs := resume_context handling outcome hr
    have ht := h t heap (by rwa [hs]) (by simpa [hr] using ho)
    rwa [hs] at ht

/-- What two parts of a body do one after the other is what their updates do one after the other. -/
theorem Transparent.after {first later : List Event} {s t u : Session σ} (heap : Heap)
    (hc : s.context.scope.chain ≠ .nil)
    (ht : t.context.scope.chain.outline =
      (Setup.setAll (updates first) s.context.scope heap).1.chain.outline)
    (hu : ∀ heap, t.context.scope.chain ≠ .nil → u.context.scope.chain.outline =
      (Setup.setAll (updates later) t.context.scope heap).1.chain.outline) :
    u.context.scope.chain.outline =
      (Setup.setAll (updates (first ++ later)) s.context.scope heap).1.chain.outline := by
  have hn := ne_nil_of_outline _ _ ht.symm (Setup.setAll_ne_nil (updates first) _ heap hc)
  rw [hu heap hn, updates_append, Setup.setAll_append]
  exact Setup.outline_setAll _ _ _ _ _ ht

theorem outline_answer [Host σ] (s : Session σ) (r : Request σ) (heap : Heap) :
    (s.answer r).2.context.scope.chain.outline =
      (Setup.setAll (updates (s.requestTrace r)) s.context.scope heap).1.chain.outline := by
  cases r with
  | set name value => exact outline_set _ _ _ _ _ _ rfl
  | get name => rfl
  | lookupBound name =>
    simp only [answer]
    split <;> rfl
  | capture saveAs => rfl
  | register name seed make => rfl
  | send path =>
    have h := s.context.send_keeps_scope (s.build path).1 (s.build path).2.heap
    exact congrArg (fun scope => scope.chain.outline) h.1
  | observe => rfl
  | fail term => rfl
  | panic message => rfl

/-- Every body is transparent, wherever it ends. -/
theorem transparent_runBody [Host σ] (script : Script σ) :
    Transparent script.runBody script.trace := by
  induction script with
  | done => exact fun s heap hc ho => rfl
  | give result => exact fun s heap hc ho => rfl
  | work step rest ih =>
    intro s heap hc ho
    exact ih (s.withWorkspace (s.toWorkspace.perform step).2) heap hc ho
  | request r handling rest ih =>
    intro s heap hc ho
    apply Transparent.after heap hc (outline_answer s r heap)
    intro heap' hn
    exact ih.settle handling _ _ (s.answer r).2 heap' hn ho.append.2
  | call entry times handling body rest ihb ihr =>
    intro s heap hc ho
    have hb := ihb.call entry times s heap hc ho.append.1
    apply Transparent.after heap hc hb
    intro heap' hn
    exact ihr.settle handling _ _ _ heap' hn ho.append.2

/-- However a tree of calls on the current scope ends, the caller's chain is then what the updates
carried out in the tree make of it when they are made in the caller in the same order, provided that
the chain is not the empty list and that no updated name is bound by a frame of the tree. -/
theorem calls_pass_updates_to_caller [Host σ] (s : Session σ) (entry : Entry) (times : Nat)
    (body : Script σ) (heap : Heap) (hc : s.context.scope.chain ≠ .nil)
    (ho : Outward (s.traceCall entry times body.trace)) :
    (s.call entry times body.runBody).session.context.scope.chain.forget =
      (Setup.setAll (updates (s.traceCall entry times body.trace)) s.context.scope
        heap).1.chain.forget := by
  have h := (transparent_runBody body).call entry times s heap hc ho
  rw [← Value.forget_outline, h, Value.forget_outline]

def tallyCaller : Session StockHost where
  context := ⟨⟨.pair 0 .nil .nil⟩, {}, "tally", 9, 0⟩

def tallyEntry : Entry :=
  ⟨.current, .cons (.atom (.symbol "n")) .nil, .cons (.atom (.number 7)) .nil⟩

/-- Updates one outer name, and another in a further call that binds `m` and fails. -/
def tallyBody : Script StockHost :=
  .request (.set (.atom (.symbol "total")) (.atom (.number 1))) {} <|
  .call ⟨.current, .cons (.atom (.symbol "m")) .nil, .cons .nil .nil⟩ 1 {}
    (.request (.set (.atom (.symbol "fresh")) .nil) {} (.request (.fail .nil) {} .done)) .done

theorem tally_passes_updates_to_caller :
    tallyCaller.context.scope.chain ≠ .nil ∧
      Outward (tallyCaller.traceCall tallyEntry 2 tallyBody.trace) ∧
      (tallyCaller.call tallyEntry 2 tallyBody.runBody).session.context.scope.chain.forget =
        (Setup.setAll (updates (tallyCaller.traceCall tallyEntry 2 tallyBody.trace))
          tallyCaller.context.scope {}).1.chain.forget := by
  let n : Value := .pair 0 (.atom 0 (.symbol "n")) .nil
  let seven : Value := .pair 1 (.atom 1 (.number 7)) .nil
  have ht : tallyCaller.traceCall tallyEntry 2 tallyBody.trace =
      [.entered .current n seven, .entered .current n seven,
        .assigned (.atom 2 (.symbol "total")) (.atom 3 (.number 1)),
        .entered .current (.pair 13 (.atom 4 (.symbol "m")) .nil) (.pair 14 .nil .nil),
        .assigned (.atom 5 (.symbol "fresh")) .nil, .left, .left, .left] := by cbv
  have hc : tallyCaller.context.scope.chain ≠ .nil := by simp [tallyCaller]
  have ho : Outward (tallyCaller.traceCall tallyEntry 2 tallyBody.trace) := by
    rw [ht]
    constructor
    · simp [Event.onCurrent]
    · simp [Event.bound, n, seven]
  exact ⟨hc, ho, calls_pass_updates_to_caller tallyCaller tallyEntry 2 tallyBody {} hc ho⟩

end Session

end LispContext
