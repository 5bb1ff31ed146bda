import LispContext.Proofs.Session.Balance
import LispContext.Proofs.Session.Moments

/-!
# The count of open calls

At every moment of a run the count in the context is the number of calls that are pending, and it
never exceeds the limit. So a call is refused exactly when as many calls are pending as the limit
allows, and then nothing has changed; and when a call is left there is one to be counted off.
-/
namespace LispContext

variable {σ : Type}

namespace Pending

def openCalls : List (Pending σ) → Nat
  | [] => 0
  | .leaving _ :: pending => openCalls pending + 1
  | .behind _ _ _ :: pending => openCalls pending

@[simp] theorem openCalls_leaving (caller : Option Scope) (pending : List (Pending σ)) :
    openCalls (.leaving caller :: pending) = openCalls pending + 1 := rfl

end Pending

/-- A message changes objects and nothing else in the context. -/
theorem Context.send_callLimit [Host σ] (c : Context σ) (path : Value) (heap : Heap) :
    (c.send path heap).2.1.callLimit = c.callLimit := by
  unfold send
  split
  · rfl
  · split <;> rfl

/-- No request changes the limit. -/
theorem Session.answer_callLimit [Host σ] (s : Session σ) (r : Request σ) :
    (s.answer r).2.context.callLimit = s.context.callLimit := by
  cases r with
  | lookupBound name =>
    simp only [answer]
    split <;> rfl
  | send path => exact s.context.send_callLimit (s.build path).1 (s.build path).2.heap
  | get name => rfl
  | set name value => rfl
  | capture saveAs => rfl
  | register name seed make => rfl
  | observe => rfl
  | fail term => rfl
  | panic message => rfl

namespace Moment

/-- The context counts the pending calls, and there are no more of them than the limit allows. -/
structure Counted (limit : Nat) (m : Moment σ) : Prop where
  callLimit : m.session.context.callLimit = limit
  callDepth : m.session.context.callDepth = Pending.openCalls m.pending
  within : Pending.openCalls m.pending ≤ limit

theorem Counted.of_context {limit : Nat} {m m' : Moment σ} (h : m.Counted limit)
    (hl : m'.session.context.callLimit = m.session.context.callLimit)
    (hd : m'.session.context.callDepth = m.session.context.callDepth)
    (hp : Pending.openCalls m'.pending = Pending.openCalls m.pending) : m'.Counted limit :=
  ⟨hl.trans h.callLimit, by rw [hd, hp, h.callDepth], hp ▸ h.within⟩

/-- Below the limit a call is opened and counted, at the limit it is refused. -/
theorem Counted.openCall {limit : Nat} {base : CallBase} {params args : Value} {times : Nat}
    {body : Script σ} {pending : List (Pending σ)} {s : Session σ}
    (h : Counted limit ⟨.calls base params args times body, pending, s⟩) :
    Counted limit (Moment.openCall base params args body pending s times) := by
  obtain ⟨hl, hd, hw⟩ := h
  cases times with
  | zero => exact ⟨hl, hd, hw⟩
  | succ times =>
    by_cases hf : s.context.callLimit ≤ s.context.callDepth
    · rw [openCall_of_full hf]
      exact ⟨hl, hd, hw⟩
    · rw [openCall_of_open hf]
      refine ⟨hl, ?_, ?_⟩
      · simpa using hd
      · simp only at hl hd hw
        rw [Pending.openCalls_leaving]
        omega

/-- What is pending first is either a call, which is left and counted off, or a step. -/
theorem Counted.resume {limit : Nat} {outcome : Outcome} {pending : List (Pending σ)}
    {s : Session σ} (h : Counted limit ⟨.ended outcome, pending, s⟩) :
    Counted limit (Moment.resume outcome s pending) := by
  cases pending with
  | nil => exact h
  | cons first pending =>
    cases first with
    | leaving caller =>
      obtain ⟨hl, hd, hw⟩ := h
      simp only [Pending.openCalls_leaving] at hd hw
      refine ⟨hl, ?_, ?_⟩
      · simp [Moment.resume, hd]
      · simp only [Moment.resume]
        omega
    | behind level handling rest =>
      apply h.of_context
      · simp [Moment.resume]
      · simp [Moment.resume]
      · rfl

variable [Host σ]

theorem Counted.advance {limit : Nat} {level : Level} {script : Script σ}
    {pending : List (Pending σ)} {s : Session σ}
    (h : Counted limit ⟨.script level script, pending, s⟩) :
    Counted limit (Moment.advance level pending s script) := by
  cases script with
  | done => exact ⟨h.callLimit, h.callDepth, h.within⟩
  | give result => cases level <;> exact ⟨h.callLimit, h.callDepth, h.within⟩
  | work step rest => exact ⟨h.callLimit, h.callDepth, h.within⟩
  | request r handling rest =>
    exact h.of_context (s.answer_callLimit r) (s.balanced_answer r).callDepth rfl
  | call entry times handling body rest => exact ⟨h.callLimit, h.callDepth, h.within⟩

theorem Counted.step {limit : Nat} {m : Moment σ} (h : m.Counted limit) :
    m.step.Counted limit := by
  obtain ⟨task, pending, s⟩ := m
  cases task with
  | script level script => exact h.advance
  | calls base params args times body => exact h.openCall
  | ended outcome => exact h.resume

theorem Counted.after {limit : Nat} {m : Moment σ} (h : m.Counted limit) (n : Nat) :
    (m.after n).Counted limit := by
  induction n generalizing m with
  | zero => exact h
  | succ n ih => exact ih h.step

/-- How calls are counted at a moment of a run, refused, opened and left. -/
structure Accounted (limit : Nat) (m : Moment σ) : Prop where
  callDepth : m.session.context.callDepth = Pending.openCalls m.pending
  within : Pending.openCalls m.pending ≤ limit
  /-- A call is refused exactly at the limit. -/
  refused_iff : ∀ base params args times body, m.task = .calls base params args (times + 1) body →
    ((∃ cause, m.session.enter base params args = .error cause) ↔
      m.session.context.callDepth = limit)
  /-- A refused call has failed, and nothing else has happened. -/
  refused : ∀ base params args times body, m.task = .calls base params args (times + 1) body →
    m.session.context.callDepth = limit →
      m.step = { m with task := .ended (.error (.stackOverflow (limit + 1) limit)) }
  /-- A call that is not refused is open, and it is counted within the limit. -/
  opened : ∀ base params args times body, m.task = .calls base params args (times + 1) body →
    m.session.context.callDepth ≠ limit →
      m.session.context.callDepth + 1 ≤ limit ∧
        m.step = ⟨.calls base params args times body,
          .leaving (base.caller m.session) :: m.pending, m.session.inside base params args⟩
  /-- Leaving a call counts it off, which takes one off the count. -/
  left : ∀ outcome caller pending, m.task = .ended outcome →
    m.pending = .leaving caller :: pending →
      m.step.session.context.callDepth + 1 = m.session.context.callDepth

theorem Counted.accounted {limit : Nat} {m : Moment σ} (h : m.Counted limit) :
    m.Accounted limit := by
  obtain ⟨task, pending, s⟩ := m
  obtain ⟨hl, hd, hw⟩ := h
  simp only at hl hd hw
  have hfull : s.context.callLimit ≤ s.context.callDepth ↔ s.context.callDepth = limit := by
    rw [hl]
    omega
  refine ⟨hd, hw, ?_, ?_, ?_, ?_⟩
  · rintro base params args times body -
    rw [Session.enter_eq, ← hfull]
    by_cases hf : s.context.callLimit ≤ s.context.callDepth
    · simp [hf]
    · simp [hf]
  · rintro base params args times body rfl hc
    rw [step_calls, openCall_of_full (hfull.mpr hc), hc, hl]
  · rintro base params args times body rfl hc
    refine ⟨by simp only at hc ⊢; omega, ?_⟩
    rw [step_calls, openCall_of_open fun hf => hc (hfull.mp hf)]
  · rintro outcome caller pending' rfl rfl
    rw [Pending.openCalls_leaving] at hd
    simp [Moment.step, Moment.resume, hd]

end Moment

namespace Session

/-- The moments of a program lead from its beginning to its end. At each of them the context counts
the calls that are open, at most as many as the limit allows. A call is refused exactly if the limit
is reached, and then everything is as it was, down to the counters of the heap. -/
theorem open_calls_are_counted [Host σ] (setup : Setup σ) (heap : Heap) (w : Workspace)
    (program : Script σ) :
    let s : Session σ := { w with context := (setup.start heap).1 }
    let start := Moment.start program s
    start.Reaches ⟨.ended (.value .nil), [], (program.runProgram s).2⟩ ∧
      ∀ n, (start.after n).Accounted setup.callLimit := by
  intro s start
  have hs : start.Counted setup.callLimit := ⟨rfl, rfl, Nat.zero_le _⟩
  exact ⟨Moment.reaches_runProgram program [] s, fun n => (hs.after n).accounted⟩

end Session

end LispContext
