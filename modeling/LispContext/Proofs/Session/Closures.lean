import LispContext.Proofs.Session.Calls

/-!
# Closures see what they captured

A call on a captured scope runs its body in a session that the caller's scope is no part of. So the
run is the same whatever scope the caller has, step by step and down to the counters of the heap,
and the caller's scope is behind the call the one it was before. On the scope captured last, a call
differs from one on the current scope only in that the changes to the scope are lost.
-/
namespace LispContext

variable {σ : Type}

def Session.withScope (s : Session σ) (scope : Scope) : Session σ :=
  { s with context := { s.context with scope } }

def Run.withScope (run : Run σ) (scope : Scope) : Run σ :=
  { run with session := run.session.withScope scope }

namespace Session

@[simp] theorem withScope_scope (s : Session σ) (scope : Scope) :
    (s.withScope scope).context.scope = scope := rfl

/-- Inside a call on a captured scope nothing is left of the caller's. -/
theorem inside_withScope (s : Session σ) (scope : Scope) (captured : String) (params args : Value) :
    (s.withScope scope).inside (.captured captured) params args =
      s.inside (.captured captured) params args := rfl

/-- Leaving a call on a captured scope puts the caller's scope in the place of what the body has
made, and does else what leaving any call does. -/
theorem leave_captured (s t : Session σ) (captured : String) :
    t.leave (CallBase.caller (.captured captured) s) =
      (t.leave none).withScope s.context.scope := rfl

/-- The session behind a call has the caller's scope, whatever the body has done and however it has
ended. -/
theorem inCall_captured_scope (s : Session σ) (captured : String) (params args : Value)
    (body : Session σ → Run σ) :
    (inCall (.captured captured) params args body s).session.context.scope = s.context.scope := by
  by_cases hf : s.context.callLimit ≤ s.context.callDepth
  · rw [inCall_of_full _ _ _ _ _ hf]
  · rw [inCall_of_open _ _ _ _ _ hf, leave_captured, withScope_scope]

/-- From sessions that differ in the current scope only, a call on a captured scope leads to runs
that differ in the current scope at their ends only. -/
theorem inCall_captured_withScope (s : Session σ) (scope : Scope) (captured : String)
    (params args : Value) (body : Session σ → Run σ) :
    inCall (.captured captured) params args body (s.withScope scope) =
      (inCall (.captured captured) params args body s).withScope scope := by
  by_cases hf : s.context.callLimit ≤ s.context.callDepth
  · have hf' : (s.withScope scope).context.callLimit ≤ (s.withScope scope).context.callDepth := hf
    rw [inCall_of_full _ _ _ _ _ hf, inCall_of_full _ _ _ _ _ hf']
    rfl
  · have hf' : ¬ (s.withScope scope).context.callLimit ≤ (s.withScope scope).context.callDepth := hf
    rw [inCall_of_open _ _ _ _ _ hf, inCall_of_open _ _ _ _ _ hf', inside_withScope,
      leave_captured, leave_captured]
    rfl

/-- Where the captured scope is the current one, it makes no difference to the body whether the call
is on the one or on the other. -/
theorem inCall_captured_current (s : Session σ) (captured : String) (params args : Value)
    (body : Session σ → Run σ) (h : s.toWorkspace.scope captured = s.context.scope) :
    inCall (.captured captured) params args body s =
      (inCall .current params args body s).withScope s.context.scope := by
  by_cases hf : s.context.callLimit ≤ s.context.callDepth
  · rw [inCall_of_full _ _ _ _ _ hf, inCall_of_full _ _ _ _ _ hf]
    rfl
  · have hi : s.inside (.captured captured) params args = s.inside .current params args := by
      simp only [inside, CallBase.scope, h]
    rw [inCall_of_open _ _ _ _ _ hf, inCall_of_open _ _ _ _ _ hf, hi, leave_captured]
    rfl

/-- What was captured last under a name is the current scope. -/
theorem scope_capture [Host σ] (s : Session σ) (name : String) :
    (s.answer (.capture name)).2.toWorkspace.scope name = s.context.scope := by
  simp [answer, withWorkspace, Workspace.saveScope, Workspace.scope, Context.capture]

/-- Behind a call on a captured scope the current scope is the one before, node for node. The rest
of the run, which is its outcome, the records of all its steps and the objects, the heap and
everything stored behind it, is the same for every other current scope. And it is that of a call on
the current scope, if that is the one that was captured. -/
theorem closures_are_isolated [Host σ] (s : Session σ) (captured : String) (params args : Value)
    (body : Script σ) :
    let closure := inCall (.captured captured) params args body.runBody
    let call := inCall .current params args body.runBody
    let t := (s.answer (.capture captured)).2
    (closure s).session.context.scope = s.context.scope ∧
      (∀ scope, closure (s.withScope scope) = (closure s).withScope scope) ∧
      closure t = (call t).withScope s.context.scope := by
  intro closure call t
  refine ⟨inCall_captured_scope s captured params args _, ?_, ?_⟩
  · exact fun scope => inCall_captured_withScope s scope captured params args _
  · exact inCall_captured_current t captured params args _ (s.scope_capture captured)

end Session

end LispContext
