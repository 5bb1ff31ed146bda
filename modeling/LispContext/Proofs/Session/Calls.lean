import LispContext.Session.Run

/-!
# Induction over runs

What a body does to the context is a chain of requests and calls, and the bodies of calls are such
chains again. A relation between contexts that holds across every request and every call, and that
can be chained, therefore holds across every body, however the body ends.
-/
namespace LispContext

variable {σ : Type}

namespace CallBase

def scope (base : CallBase) (s : Session σ) : Scope :=
  match base with
  | .current => s.context.scope
  | .captured name => s.toWorkspace.scope name

/-- The scope that goes back into place when the call is left, where the call replaced it. -/
def caller (base : CallBase) (s : Session σ) : Option Scope :=
  match base with
  | .current => none
  | .captured _ => some s.context.scope

end CallBase

namespace Session

def inside (s : Session σ) (base : CallBase) (params args : Value) : Session σ :=
  let (scope, heap) := (base.scope s).push params args s.heap
  { s with heap, context := { s.context with scope, callDepth := s.context.callDepth + 1 } }

@[simp] theorem inside_scope (s : Session σ) (base : CallBase) (params args : Value) :
    (s.inside base params args).context.scope = ((base.scope s).push params args s.heap).1 := rfl

@[simp] theorem inside_callDepth (s : Session σ) (base : CallBase) (params args : Value) :
    (s.inside base params args).context.callDepth = s.context.callDepth + 1 := rfl

/-- A call is refused at the limit and opened below it. -/
theorem enter_eq (s : Session σ) (base : CallBase) (params args : Value) :
    s.enter base params args =
      if s.context.callLimit ≤ s.context.callDepth then
        .error (.stackOverflow (s.context.callDepth + 1) s.context.callLimit)
      else .ok (base.caller s, s.inside base params args) := by
  by_cases h : s.context.callLimit ≤ s.context.callDepth
  · simp [enter, Context.enter, Context.checkDepth, h]
  · cases base <;>
      simp [enter, Context.enter, Context.checkDepth, Context.pushCall, inside, CallBase.scope,
        CallBase.caller, h]

/-- At the limit a call does nothing. -/
theorem inCall_of_full (base : CallBase) (params args : Value) (body : Session σ → Run σ)
    (s : Session σ) (h : s.context.callLimit ≤ s.context.callDepth) :
    inCall base params args body s =
      ⟨.error (.stackOverflow (s.context.callDepth + 1) s.context.callLimit), .done, s⟩ :=
  inCall_of_refused (by simp [enter_eq, h])

/-- Below the limit the body runs inside the call, and the call is left whatever the outcome. -/
theorem inCall_of_open (base : CallBase) (params args : Value) (body : Session σ → Run σ)
    (s : Session σ) (h : ¬ s.context.callLimit ≤ s.context.callDepth) :
    inCall base params args body s =
      { body (s.inside base params args) with
        session := (body (s.inside base params args)).session.leave (base.caller s) } := by
  simp [inCall, enter_eq, h]

/-- The scope after a call on the current scope, which has lost the frame of the call, and after a
call on a captured scope, which is the scope before the call. -/
theorem leave_scope (s : Session σ) (base : CallBase) (t : Session σ) :
    (t.leave (base.caller s)).context.scope =
      match base with
      | .current => t.context.scope.pop
      | .captured _ => s.context.scope := by
  cases base <;> rfl

/-- A relation between contexts that holds across every request, that can be chained, and that holds
across a call if it holds across the body. -/
structure Stable [Host σ] (R : Context σ → Context σ → Prop) : Prop where
  refl : ∀ c, R c c
  trans : ∀ a b c, R a b → R b c → R a c
  request : ∀ (s : Session σ) (r : Request σ), R s.context (s.answer r).2.context
  leave : ∀ (s : Session σ) (base : CallBase) (params args : Value) (t : Session σ),
    R (s.inside base params args).context t.context →
      R s.context (t.leave (base.caller s)).context

namespace Stable

variable [Host σ] {R : Context σ → Context σ → Prop}

theorem inCall (h : Stable R) (base : CallBase) (params args : Value) (body : Session σ → Run σ)
    (hb : ∀ s, R s.context (body s).session.context) (s : Session σ) :
    R s.context (Session.inCall base params args body s).session.context := by
  by_cases hf : s.context.callLimit ≤ s.context.callDepth
  · rw [inCall_of_full _ _ _ _ _ hf]
    exact h.refl _
  · rw [inCall_of_open _ _ _ _ _ hf]
    exact h.leave s base params args _ (hb _)

theorem inCalls (h : Stable R) (base : CallBase) (params args : Value) (body : Session σ → Run σ)
    (hb : ∀ s, R s.context (body s).session.context) (times : Nat) (s : Session σ) :
    R s.context (Session.inCalls base params args body times s).session.context := by
  induction times generalizing s with
  | zero => exact hb s
  | succ times ih => exact h.inCall base params args _ ih s

theorem call (h : Stable R) (entry : Entry) (times : Nat) (body : Session σ → Run σ)
    (hb : ∀ s, R s.context (body s).session.context) (s : Session σ) :
    R s.context (s.call entry times body).session.context :=
  h.inCalls entry.base _ _ body hb times ((s.build entry.params).2.build entry.args).2

/-- A step behind which the body may go on keeps what the rest of the body keeps. -/
theorem settle (h : Stable R) (handling : Handling) (outcome : Outcome)
    (record : Except EvalError Value → Place → Transcript → Transcript) (rest : Session σ → Run σ)
    (hr : ∀ s, R s.context (rest s).session.context) (s : Session σ) :
    R s.context (Script.settle handling outcome record rest s).session.context := by
  cases outcome with
  | panic message => exact h.refl _
  | value v =>
    have hs := hr (s.saveResult handling.saveAs (.ok v))
    rwa [saveResult_context] at hs
  | error cause =>
    have hs := hr (s.saveResult handling.saveAs (.error cause))
    rw [saveResult_context] at hs
    rw [Script.settle]
    split
    · exact hs
    · simpa using h.refl s.context

theorem runBody (h : Stable R) (script : Script σ) (s : Session σ) :
    R s.context (script.runBody s).session.context := by
  induction script generalizing s with
  | done => exact h.refl _
  | give result => exact h.refl _
  | work step rest ih => exact ih (s.withWorkspace (s.toWorkspace.perform step).2)
  | request r handling rest ih =>
    apply h.trans _ _ _ (h.request s r)
    exact h.settle handling _ _ _ ih (s.answer r).2
  | call entry times handling body rest ihb ihr =>
    apply h.trans _ _ _ (h.call entry times body.runBody ihb s)
    exact h.settle handling _ _ _ ihr _

end Stable

end Session

namespace Transcript

def outermost : Transcript → List Place
  | done => []
  | work _ rest => rest.outermost
  | request _ place rest => place :: rest.outermost
  | call _ place _ rest => place :: rest.outermost
  | unwound _ place rest => place :: rest.outermost

end Transcript

namespace Session

/-- The place behind an outermost step is recorded, whether the step has a result or panicked. -/
theorem settleOutermost_places {I : Place → Prop} (saveAs : Option String) (outcome : Outcome)
    (record : Except EvalError Value → Place → Transcript → Transcript)
    (hrecord : ∀ result place rest, (record result place rest).outermost = place :: rest.outermost)
    (rest : Session σ → Transcript × Session σ) (s : Session σ) (hs : I s.place)
    (hr : ∀ s : Session σ, I s.place → (∀ p ∈ (rest s).1.outermost, I p) ∧ I (rest s).2.place) :
    (∀ p ∈ (Script.settleOutermost saveAs outcome record rest s).1.outermost, I p) ∧
      I (Script.settleOutermost saveAs outcome record rest s).2.place := by
  have hsaved (result : Except EvalError Value) : (s.saveResult saveAs result).place = s.place := by
    simp [place]
  cases outcome with
  | panic message => simpa [Script.settleOutermost, Transcript.outermost, hs] using hr s hs
  | value v =>
    have hn := hr (s.saveResult saveAs (.ok v)) (by rwa [hsaved])
    simpa [Script.settleOutermost, hrecord, hsaved, hs] using hn
  | error cause =>
    have hn := hr (s.saveResult saveAs (.error cause)) (by rwa [hsaved])
    simpa [Script.settleOutermost, hrecord, hsaved, hs] using hn

/-- What holds at a place holds at every outermost record of a program and at its end, if it goes on
holding wherever the relation leads. -/
theorem Stable.runProgram [Host σ] {R : Context σ → Context σ → Prop} {I : Place → Prop}
    (h : Stable R) (hi : ∀ s t : Session σ, R s.context t.context → I s.place → I t.place)
    (program : Script σ) (s : Session σ) (hs : I s.place) :
    (∀ p ∈ (program.runProgram s).1.outermost, I p) ∧ I (program.runProgram s).2.place := by
  induction program generalizing s with
  | done => simpa [Script.runProgram, Transcript.outermost] using hs
  | give result => simpa [Script.runProgram, Transcript.outermost] using hs
  | work step rest ih => exact ih (s.withWorkspace (s.toWorkspace.perform step).2) hs
  | request r handling rest ih =>
    exact settleOutermost_places _ _ _ (fun _ _ _ => rfl) _ _ (hi _ _ (h.request s r) hs) ih
  | call entry times handling body rest _ ih =>
    exact settleOutermost_places _ _ _ (fun _ _ _ => rfl) _ _
      (hi _ _ (h.call entry times body.runBody (h.runBody body) s) hs) ih

end Session

end LispContext
