import LispContext.Proofs.Session.Calls

/-!
# Traces

The trace of a body lists the updates that its run carries out and the calls that it opens and
closes, in the order in which they happen. A step behind which the body ends, and a call that is
refused, end or leave no mark in the trace just as they do in the run.
-/
namespace LispContext

variable {σ : Type}

inductive Event where
  /-- A name was given a value. -/
  | assigned (name value : Value)
  /-- A call was opened. -/
  | entered (base : CallBase) (params args : Value)
  /-- The call opened last was left. -/
  | left
  deriving DecidableEq, Repr

def Event.update? : Event → Option (Value × Value)
  | assigned name value => some (name, value)
  | _ => none

def updates (trace : List Event) : List (Value × Value) := trace.filterMap Event.update?

@[simp] theorem updates_nil : updates [] = [] := rfl

@[simp] theorem updates_assigned (name value : Value) (trace : List Event) :
    updates (.assigned name value :: trace) = (name, value) :: updates trace := rfl

@[simp] theorem updates_entered (base : CallBase) (params args : Value) (trace : List Event) :
    updates (.entered base params args :: trace) = updates trace := rfl

@[simp] theorem updates_left (trace : List Event) : updates (.left :: trace) = updates trace := rfl

@[simp] theorem updates_append (first later : List Event) :
    updates (first ++ later) = updates first ++ updates later := by
  simp [updates]

/-- The session in which a body goes on behind a step, unless the step ends the body. -/
def Handling.resume (handling : Handling) (outcome : Outcome) (s : Session σ) :
    Option (Session σ) :=
  match outcome with
  | .panic _ => none
  | .value v => some (s.saveResult handling.saveAs (.ok v))
  | .error cause =>
    if handling.catches then some (s.saveResult handling.saveAs (.error cause)) else none

namespace Session

def requestTrace (s : Session σ) : Request σ → List Event
  | .set name value =>
    let (name, s) := s.build name
    let (value, _) := s.build value
    [.assigned name value]
  | _ => []

def traceInCalls (base : CallBase) (params args : Value) (body : Session σ → List Event) :
    Nat → Session σ → List Event
  | 0, s => body s
  | times + 1, s =>
    match s.enter base params args with
    | .error _ => []
    | .ok (_, inside) =>
      .entered base params args :: (traceInCalls base params args body times inside ++ [.left])

def traceCall (entry : Entry) (times : Nat) (body : Session σ → List Event) (s : Session σ) :
    List Event :=
  let (params, s) := s.build entry.params
  let (args, s) := s.build entry.args
  traceInCalls entry.base params args body times s

/-- The context in which a body stands behind a step is that of the step, and the body ends in it
unless it goes on. -/
theorem resume_context {s t : Session σ} (handling : Handling) (outcome : Outcome)
    (h : handling.resume outcome s = some t) : t.context = s.context := by
  cases outcome with
  | panic message => simp [Handling.resume] at h
  | value v =>
    simp only [Handling.resume, Option.some.injEq] at h
    simp [← h]
  | error cause =>
    simp only [Handling.resume] at h
    split at h
    · simp only [Option.some.injEq] at h
      simp [← h]
    · cases h

theorem settle_context (handling : Handling) (outcome : Outcome)
    (record : Except EvalError Value → Place → Transcript → Transcript)
    (rest : Session σ → Run σ) (s : Session σ) :
    (Script.settle handling outcome record rest s).session.context =
      (handling.resume outcome s).elim s.context fun t => (rest t).session.context := by
  cases outcome with
  | panic message => rfl
  | value v => rfl
  | error cause =>
    rw [Script.settle, Handling.resume]
    by_cases h : handling.catches
    · simp [h, Run.after]
    · simp [h]

end Session

namespace Script

/-- The trace of a script that runs as the body of a call. -/
def trace [Host σ] : Script σ → Session σ → List Event
  | done, _ => []
  | give _, _ => []
  | work step rest, s => trace rest (s.withWorkspace (s.toWorkspace.perform step).2)
  | request r handling rest, s =>
    let (outcome, t) := s.answer r
    s.requestTrace r ++ (handling.resume outcome t).elim [] (trace rest)
  | call entry times handling body rest, s =>
    let run := s.call entry times (runBody body)
    s.traceCall entry times (trace body) ++ (handling.resume run.outcome run.session).elim []
      (trace rest)

end Script

end LispContext
