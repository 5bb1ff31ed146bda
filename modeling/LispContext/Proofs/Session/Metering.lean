import LispContext.Session.Run

/-!
# Reading the counters on the way

A script can read the counters of the heap before each of its operations, so that its transcript
shows what each operation has cost. The readings change nothing else: without them the transcript is
that of the script itself, the script ends as before, and the session behind it is the same.
-/
namespace LispContext

variable {σ : Type}

/-- The script that reads the counters of the heap before every operation and at the end. -/
def Script.metered : Script σ → Script σ
  | done => work (.value .allocated) done
  | work step rest => work (.value .allocated) (work step rest.metered)
  | request r handling rest => work (.value .allocated) (request r handling rest.metered)
  | call entry times handling body rest =>
    work (.value .allocated) (call entry times handling body.metered rest.metered)
  | give result => work (.value .allocated) (give result)

/-- The transcript without the reading in front of each record. -/
def Transcript.unread : Transcript → Transcript
  | work _ (work answer rest) => work answer rest.unread
  | work _ (request result place rest) => request result place rest.unread
  | work _ (call result place body rest) => call result place body.unread rest.unread
  | work _ (unwound message place rest) => unwound message place rest.unread
  | work _ done => done
  | other => other

def Run.unread (run : Run σ) : Run σ := { run with transcript := run.transcript.unread }

namespace Session

variable {body body' : Session σ → Run σ}

theorem unread_inCalls (hb : ∀ s, (body s).unread = body' s) (base : CallBase)
    (params args : Value) (times : Nat) (s : Session σ) :
    (inCalls base params args body times s).unread = inCalls base params args body' times s := by
  induction times generalizing s with
  | zero => exact hb s
  | succ times ih =>
    rw [inCalls_succ, inCalls_succ, inCall, inCall]
    split
    · rfl
    · next caller inside _ =>
      rw [← ih inside]
      rfl

theorem unread_call (hb : ∀ s, (body s).unread = body' s) (entry : Entry) (times : Nat)
    (s : Session σ) : (s.call entry times body).unread = s.call entry times body' :=
  unread_inCalls hb entry.base _ _ times _

end Session

namespace Script

section Settling

variable (reading : Answer)
variable (record record' : Except EvalError Value → Place → Transcript → Transcript)
variable (hrec : ∀ result place rest,
  (Transcript.work reading (record result place rest)).unread = record' result place rest.unread)

include hrec

/-- Behind a step with a reading in front of its record, the readings of the rest are all that is
left to take away. -/
theorem unread_settle {rest rest' : Session σ → Run σ} (hr : ∀ s, (rest s).unread = rest' s)
    (handling : Handling) (outcome : Outcome) (s : Session σ) :
    ((settle handling outcome record rest s).after (.work reading)).unread =
      settle handling outcome record' rest' s := by
  cases outcome with
  | panic message => rfl
  | value v =>
    rw [settle, settle, ← hr]
    simp only [Run.unread, Run.after, hrec]
  | error cause =>
    rw [settle, settle, ← hr]
    split
    · simp only [Run.unread, Run.after, hrec]
    · simp only [Run.unread, Run.after, hrec, Transcript.unread]

theorem unread_settleOutermost {rest rest' : Session σ → Transcript × Session σ}
    (hr : ∀ s, (rest s).map Transcript.unread id = rest' s) (saveAs : Option String)
    (outcome : Outcome) (s : Session σ) :
    ((settleOutermost saveAs outcome record rest s).map (.work reading) id).map
        Transcript.unread id = settleOutermost saveAs outcome record' rest' s := by
  cases outcome with
  | panic message =>
    rw [settleOutermost, settleOutermost, ← hr]
    rfl
  | value v =>
    rw [settleOutermost, settleOutermost, ← hr]
    simp only [Prod.map, hrec, id]
  | error cause =>
    rw [settleOutermost, settleOutermost, ← hr]
    simp only [Prod.map, hrec, id]

end Settling

variable [Host σ]

/-- A body that reads the counters runs as it does without the readings. -/
theorem runBody_metered (script : Script σ) (s : Session σ) :
    (script.metered.runBody s).unread = script.runBody s := by
  induction script generalizing s with
  | done => rfl
  | give result => rfl
  | work step rest ih =>
    have hs := ih (s.withWorkspace (s.toWorkspace.perform step).2)
    exact congrArg (·.after (.work (s.toWorkspace.perform step).1)) hs
  | request r handling rest ih =>
    exact unread_settle _ .request .request (fun _ _ _ => rfl) ih handling _ _
  | call entry times handling body rest ihb ihr =>
    let run := s.call entry times body.metered.runBody
    rw [runBody, ← Session.unread_call ihb]
    exact unread_settle _ (.call · · run.transcript) (.call · · run.unread.transcript)
      (fun _ _ _ => rfl) ihr handling run.outcome run.session

/-- A program that reads the counters shows the same besides, and leaves the session that it leaves
without the readings. -/
theorem runProgram_metered (program : Script σ) (s : Session σ) :
    (program.metered.runProgram s).map Transcript.unread id = program.runProgram s := by
  induction program generalizing s with
  | done => rfl
  | give result => rfl
  | work step rest ih =>
    have hs := ih (s.withWorkspace (s.toWorkspace.perform step).2)
    exact congrArg (Prod.map (Transcript.work (s.toWorkspace.perform step).1) id) hs
  | request r handling rest ih =>
    exact unread_settleOutermost _ .request .request (fun _ _ _ => rfl) ih _ _ _
  | call entry times handling body rest _ ih =>
    let run := s.call entry times body.metered.runBody
    rw [runProgram, ← Session.unread_call (runBody_metered body)]
    exact unread_settleOutermost _ (.call · · run.transcript) (.call · · run.unread.transcript)
      (fun _ _ _ => rfl) ih _ run.outcome run.session

end Script

end LispContext
