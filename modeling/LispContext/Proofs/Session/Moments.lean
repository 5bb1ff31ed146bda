import LispContext.Proofs.Session.Trace

/-!
# Runs moment by moment

A run is taken apart into moments. A moment holds what is to be done next, what is pending behind
it, innermost first, and the session. The pending calls are the calls that were opened and not yet
left. A step either begins something, and then what is behind it becomes pending, or it tells what
is pending first how something has ended. This is the run of a script: the moments lead to the
outcome and to the session in which the script ends.
-/
namespace LispContext

variable {σ : Type}

/-- Whether a script runs outside every call or as the body of one. -/
inductive Level where
  | outermost
  | body
  deriving DecidableEq, Repr

def Level.goesOn : Level → Handling → Outcome → Bool
  | outermost, _, _ => true
  | body, _, .value _ => true
  | body, handling, .error _ => handling.catches
  | body, _, .panic _ => false

/-- What waits until something inside it has ended. -/
inductive Pending (σ : Type) where
  /-- An open call, with the scope to go back to if it is on a captured one. -/
  | leaving (caller : Option Scope)
  /-- A step under way, with the rest of its script. -/
  | behind (level : Level) (handling : Handling) (rest : Script σ)

inductive Task (σ : Type) where
  | script (level : Level) (script : Script σ)
  /-- So many calls are to be opened, one inside the other, around a body. -/
  | calls (base : CallBase) (params args : Value) (times : Nat) (body : Script σ)
  /-- What was being done has ended. -/
  | ended (outcome : Outcome)

structure Moment (σ : Type) where
  task : Task σ
  pending : List (Pending σ)
  session : Session σ

/-- The session behind a step with the given outcome. A panic stores nothing. -/
def Session.settled (s : Session σ) (saveAs : Option String) : Outcome → Session σ
  | .value v => s.saveResult saveAs (.ok v)
  | .error cause => s.saveResult saveAs (.error cause)
  | .panic _ => s

/-- Storing a result leaves the context alone. -/
@[simp] theorem Session.settled_context (s : Session σ) (saveAs : Option String)
    (outcome : Outcome) : (s.settled saveAs outcome).context = s.context := by
  cases outcome with
  | value v => exact s.saveResult_context saveAs (.ok v)
  | error cause => exact s.saveResult_context saveAs (.error cause)
  | panic message => rfl

namespace Moment

/-- Opens the first of the calls, or begins the body if there are none left. -/
def openCall (base : CallBase) (params args : Value) (body : Script σ)
    (pending : List (Pending σ)) (s : Session σ) : Nat → Moment σ
  | 0 => ⟨.script .body body, pending, s⟩
  | times + 1 =>
    match s.enter base params args with
    | .error cause => ⟨.ended (.error cause), pending, s⟩
    | .ok (caller, inside) =>
      ⟨.calls base params args times body, .leaving caller :: pending, inside⟩

/-- A call that is refused has ended. -/
theorem openCall_of_full {s : Session σ} (h : s.context.callLimit ≤ s.context.callDepth)
    (base : CallBase) (params args : Value) (times : Nat) (body : Script σ)
    (pending : List (Pending σ)) :
    openCall base params args body pending s (times + 1) =
      ⟨.ended (.error (.stackOverflow (s.context.callDepth + 1) s.context.callLimit)), pending,
        s⟩ := by
  simp [openCall, s.enter_eq, h]

/-- A call that is not refused is pending. -/
theorem openCall_of_open {s : Session σ} (h : ¬ s.context.callLimit ≤ s.context.callDepth)
    (base : CallBase) (params args : Value) (times : Nat) (body : Script σ)
    (pending : List (Pending σ)) :
    openCall base params args body pending s (times + 1) =
      ⟨.calls base params args times body, .leaving (base.caller s) :: pending,
        s.inside base params args⟩ := by
  simp [openCall, s.enter_eq, h]

def resume (outcome : Outcome) (s : Session σ) : List (Pending σ) → Moment σ
  | [] => ⟨.ended outcome, [], s⟩
  | .leaving caller :: pending => ⟨.ended outcome, pending, s.leave caller⟩
  | .behind level handling rest :: pending =>
    ⟨if level.goesOn handling outcome then .script level rest else .ended outcome, pending,
      s.settled handling.saveAs outcome⟩

/-- A body goes on behind a step unless the step ends it. -/
theorem resume_body (handling : Handling) (outcome : Outcome) (s : Session σ) (rest : Script σ)
    (pending : List (Pending σ)) :
    resume outcome s (.behind .body handling rest :: pending) =
      (handling.resume outcome s).elim
        ⟨.ended outcome, pending, s.settled handling.saveAs outcome⟩
        fun t => ⟨.script .body rest, pending, t⟩ := by
  cases outcome with
  | value v => rfl
  | panic message => rfl
  | error cause =>
    cases hc : handling.catches <;>
      simp [resume, Level.goesOn, Handling.resume, Session.settled, hc]

theorem resume_of_ends {level : Level} {handling : Handling} {outcome : Outcome}
    (h : level.goesOn handling outcome = false) (s : Session σ) (rest : Script σ)
    (pending : List (Pending σ)) :
    resume outcome s (.behind level handling rest :: pending) =
      ⟨.ended outcome, pending, s.settled handling.saveAs outcome⟩ := by
  simp [resume, h]

variable [Host σ]

def advance (level : Level) (pending : List (Pending σ)) (s : Session σ) : Script σ → Moment σ
  | .done => ⟨.ended (.value .nil), pending, s⟩
  | .give result =>
    match level with
    | .outermost => ⟨.ended (.value .nil), pending, s⟩
    | .body => ⟨.ended (.value (s.build result).1), pending, (s.build result).2⟩
  | .work step rest =>
    ⟨.script level rest, pending, s.withWorkspace (s.toWorkspace.perform step).2⟩
  | .request r handling rest =>
    ⟨.ended (s.answer r).1, .behind level handling rest :: pending, (s.answer r).2⟩
  | .call entry times handling body rest =>
    let (params, s) := s.build entry.params
    let (args, s) := s.build entry.args
    ⟨.calls entry.base params args times body, .behind level handling rest :: pending, s⟩

/-- The moment after this one. Where nothing is pending any more, it is the same. -/
def step (m : Moment σ) : Moment σ :=
  match m.task with
  | .script level script => advance level m.pending m.session script
  | .calls base params args times body =>
    openCall base params args body m.pending m.session times
  | .ended outcome => resume outcome m.session m.pending

theorem step_calls (base : CallBase) (params args : Value) (times : Nat) (body : Script σ)
    (pending : List (Pending σ)) (s : Session σ) :
    step ⟨.calls base params args times body, pending, s⟩ =
      openCall base params args body pending s times := rfl

theorem step_ended (outcome : Outcome) (pending : List (Pending σ)) (s : Session σ) :
    step ⟨.ended outcome, pending, s⟩ = resume outcome s pending := rfl

def after (m : Moment σ) : Nat → Moment σ
  | 0 => m
  | n + 1 => m.step.after n

@[simp] theorem after_zero (m : Moment σ) : m.after 0 = m := rfl

@[simp] theorem after_succ (m : Moment σ) (n : Nat) : m.after (n + 1) = m.step.after n := rfl

theorem after_add (m : Moment σ) (k n : Nat) : m.after (k + n) = (m.after k).after n := by
  induction k generalizing m with
  | zero => rw [Nat.zero_add, after_zero]
  | succ k ih => rw [Nat.succ_add, after_succ, after_succ, ih]

def start (program : Script σ) (s : Session σ) : Moment σ := ⟨.script .outermost program, [], s⟩

/-- The first moment of a call that is made outside all others. -/
def calling (entry : Entry) (times : Nat) (body : Script σ) (s : Session σ) : Moment σ :=
  let (params, s) := s.build entry.params
  let (args, s) := s.build entry.args
  ⟨.calls entry.base params args times body, [], s⟩

def atEnd (run : Run σ) (pending : List (Pending σ)) : Moment σ :=
  ⟨.ended run.outcome, pending, run.session⟩

def Reaches (m m' : Moment σ) : Prop := ∃ n, m.after n = m'

theorem Reaches.refl (m : Moment σ) : m.Reaches m := ⟨0, rfl⟩

theorem Reaches.trans {a b c : Moment σ} (h : a.Reaches b) (h' : b.Reaches c) : a.Reaches c := by
  obtain ⟨k, rfl⟩ := h
  obtain ⟨n, rfl⟩ := h'
  exact ⟨k + n, a.after_add k n⟩

/-- What is reached from the next moment is reached. -/
theorem Reaches.of_step {m m' : Moment σ} (h : m.step.Reaches m') : m.Reaches m' := by
  obtain ⟨n, hn⟩ := h
  exact ⟨n + 1, hn⟩

theorem after_of_step_eq {m : Moment σ} (h : m.step = m) (n : Nat) : m.after n = m := by
  induction n with
  | zero => rfl
  | succ n ih => rw [after_succ, h, ih]

/-- A run comes to rest in one moment only. -/
theorem Reaches.eq_of_rest {m a b : Moment σ} (ha : m.Reaches a) (hb : m.Reaches b)
    (hra : a.step = a) (hrb : b.step = b) : a = b := by
  obtain ⟨k, rfl⟩ := ha
  obtain ⟨n, rfl⟩ := hb
  calc m.after k = (m.after k).after n := (after_of_step_eq hra n).symm
    _ = m.after (n + k) := by rw [Nat.add_comm, after_add]
    _ = (m.after n).after k := m.after_add n k
    _ = m.after n := after_of_step_eq hrb k

omit [Host σ] in
theorem atEnd_settle (handling : Handling) (outcome : Outcome)
    (record : Except EvalError Value → Place → Transcript → Transcript) (rest : Session σ → Run σ)
    (s : Session σ) (pending : List (Pending σ)) :
    atEnd (Script.settle handling outcome record rest s) pending =
      (handling.resume outcome s).elim
        ⟨.ended outcome, pending, s.settled handling.saveAs outcome⟩
        fun t => atEnd (rest t) pending := by
  cases outcome with
  | value v => rfl
  | panic message => rfl
  | error cause =>
    cases hc : handling.catches <;>
      simp [Script.settle, Handling.resume, Session.settled, atEnd, Run.after, hc]

/-- Behind a step of a body the moments lead where the settling of the step leads. -/
theorem reaches_settle {rest : Script σ} {pending : List (Pending σ)}
    (hr : ∀ s, Reaches ⟨.script .body rest, pending, s⟩ (atEnd (rest.runBody s) pending))
    (handling : Handling) (outcome : Outcome)
    (record : Except EvalError Value → Place → Transcript → Transcript) (s : Session σ) :
    Reaches ⟨.ended outcome, .behind .body handling rest :: pending, s⟩
      (atEnd (Script.settle handling outcome record rest.runBody s) pending) := by
  apply Reaches.of_step
  rw [step_ended, resume_body, atEnd_settle]
  cases handling.resume outcome s with
  | none => exact .refl _
  | some t => exact hr t

/-- Calls that are opened one after the other are left again in turn, however the body ends. -/
theorem reaches_inCalls {body : Script σ}
    (hb : ∀ pending s, Reaches ⟨.script .body body, pending, s⟩ (atEnd (body.runBody s) pending))
    (base : CallBase) (params args : Value) (times : Nat) (pending : List (Pending σ))
    (s : Session σ) :
    Reaches ⟨.calls base params args times body, pending, s⟩
      (atEnd (Session.inCalls base params args body.runBody times s) pending) := by
  induction times generalizing pending s with
  | zero => exact (hb pending s).of_step
  | succ times ih =>
    -- The call opened here is pending behind all others, so it is left last, by one more step.
    apply Reaches.of_step
    rw [Session.inCalls_succ, Session.inCall, step_calls, openCall]
    cases s.enter base params args with
    | error cause => exact .refl _
    | ok opened => exact (ih (.leaving opened.1 :: pending) opened.2).trans ⟨1, rfl⟩

/-- The moments of a body lead to the end of its run. -/
theorem reaches_runBody (script : Script σ) (pending : List (Pending σ)) (s : Session σ) :
    Reaches ⟨.script .body script, pending, s⟩ (atEnd (script.runBody s) pending) := by
  induction script generalizing pending s with
  | done => exact ⟨1, rfl⟩
  | give result => exact ⟨1, rfl⟩
  | work step rest ih => exact (ih pending _).of_step
  | request r handling rest ih =>
    exact (reaches_settle (ih pending) handling _ .request _).of_step
  | call entry times handling body rest ihb ihr =>
    apply Reaches.of_step
    apply (reaches_inCalls ihb entry.base _ _ times _ _).trans
    exact reaches_settle (ihr pending) handling _ _ _

/-- The moments of a call lead to the end of its run. -/
theorem reaches_call (entry : Entry) (times : Nat) (body : Script σ) (s : Session σ) :
    (calling entry times body s).Reaches (atEnd (s.call entry times body.runBody) []) :=
  reaches_inCalls (reaches_runBody body) entry.base _ _ times [] _

theorem reaches_settleOutermost {rest : Script σ} {pending : List (Pending σ)}
    (hr : ∀ s, Reaches ⟨.script .outermost rest, pending, s⟩
      ⟨.ended (.value .nil), pending, (rest.runProgram s).2⟩)
    (handling : Handling) (outcome : Outcome)
    (record : Except EvalError Value → Place → Transcript → Transcript) (s : Session σ) :
    Reaches ⟨.ended outcome, .behind .outermost handling rest :: pending, s⟩
      ⟨.ended (.value .nil), pending,
        (Script.settleOutermost handling.saveAs outcome record rest.runProgram s).2⟩ := by
  apply Reaches.of_step
  cases outcome with
  | panic message => exact hr s
  | value v => exact hr _
  | error cause => exact hr _

/-- The moments of a program lead to the session in which it ends. -/
theorem reaches_runProgram (program : Script σ) (pending : List (Pending σ)) (s : Session σ) :
    Reaches ⟨.script .outermost program, pending, s⟩
      ⟨.ended (.value .nil), pending, (program.runProgram s).2⟩ := by
  induction program generalizing pending s with
  | done => exact ⟨1, rfl⟩
  | give result => exact ⟨1, rfl⟩
  | work step rest ih => exact (ih pending _).of_step
  | request r handling rest ih =>
    exact (reaches_settleOutermost (ih pending) handling _ .request _).of_step
  | call entry times handling body rest _ ih =>
    apply Reaches.of_step
    apply (reaches_inCalls (reaches_runBody body) entry.base _ _ times _ _).trans
    exact reaches_settleOutermost (ih pending) handling _ _ _

end Moment

end LispContext
