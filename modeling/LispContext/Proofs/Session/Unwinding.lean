import LispContext.Proofs.Session.Landings
import LispContext.Proofs.Session.Positions
import LispContext.Session.StockHost

/-!
# Errors and panics unwind alike

An error that nothing catches and a panic leave the pending calls one after the other, and differ in
what they record and store on the way. So it makes no difference to the context whether the step at
some position in a tree of calls fails or panics. What is kept in the caller's chain are the updates
that have landed there before that step, and nothing that was bound in a frame of the tree.
-/
namespace LispContext

variable {σ : Type}

namespace Pending

/-- The objects stay as they are when calls are left. -/
@[simp] theorem unwind_hosts (pending : List (Pending σ)) (c : Context σ) :
    (unwind pending c).hosts = c.hosts := by
  induction pending generalizing c with
  | nil => rfl
  | cons first pending ih =>
    cases first with
    | leaving caller => exact ih (c.leave caller)
    | behind level handling rest => exact ih c

end Pending

namespace Moment

variable [Host σ]

/-- Where everything pending lets an error pass, what has ended without a value ends everything, and
the pending calls are left. -/
theorem reaches_unwound {outcome : Outcome} (ho : ∀ v, outcome ≠ .value v)
    {pending : List (Pending σ)} (hp : ∀ p ∈ pending, p.passes = true) (s : Session σ) :
    ∃ t : Session σ, t.context = Pending.unwind pending s.context ∧
      Reaches ⟨.ended outcome, pending, s⟩ ⟨.ended outcome, [], t⟩ := by
  induction pending generalizing s with
  | nil => exact ⟨s, rfl, .refl _⟩
  | cons first pending ih =>
    obtain ⟨hf, hl⟩ := List.forall_mem_cons.mp hp
    cases first with
    | leaving caller =>
      obtain ⟨t, ht, hr⟩ := ih hl (s.leave caller)
      exact ⟨t, ht, hr.of_step⟩
    | behind level handling rest =>
      have he : level.goesOn handling outcome = false := by
        cases level with
        | outermost => cases hf
        | body =>
          cases outcome with
          | value v => exact absurd rfl (ho v)
          | error cause =>
            have hc : handling.catches = false := by simpa using hf
            exact hc
          | panic message => rfl
      obtain ⟨t, ht, hr⟩ := ih hl (s.settled handling.saveAs outcome)
      rw [Session.settled_context] at ht
      refine ⟨t, ht, Reaches.of_step ?_⟩
      rw [step_ended, resume_of_ends he]
      exact hr

end Moment

namespace Session

variable [Host σ]

/-- Without a value at the position there is none at the end of the call, which ends as the script
at the position does, and in its context with everything left. -/
theorem call_of_arrival {place : Position σ} {entry : Entry} {times : Nat} {s : Session σ}
    {a : Arrival σ} (ha : place.arrivalInCall? entry times s = some a) {script : Script σ}
    (ho : ∀ v, (script.runBody a.session).outcome ≠ .value v) :
    (s.call entry times (place.fill script).runBody).outcome =
        (script.runBody a.session).outcome ∧
      (s.call entry times (place.fill script).runBody).session.context =
        Pending.unwind a.pending (script.runBody a.session).session.context := by
  obtain ⟨t, ht, hu⟩ := Moment.reaches_unwound ho (Position.passes_arrivalInCall ha)
    (script.runBody a.session).session
  have hp := (Moment.reaches_position_in_call ha script).trans
    ((Moment.reaches_runBody script a.pending a.session).trans hu)
  -- The moments of the call come to rest once, at its end and at the end of the unwinding.
  have he := Moment.reaches_call entry times (place.fill script) s
  have hm := he.eq_of_rest hp rfl rfl
  obtain ⟨ho', -, hs⟩ := Moment.mk.inj hm
  refine ⟨Task.ended.inj ho', ?_⟩
  rw [← ht]
  exact congrArg Session.context hs

/-- What the script at a position does and what another does in its place: the one fails and the
other panics, none of them changes the scope, and they leave the same objects. -/
structure FailsAlike (t : Session σ) (failing panicking : Script σ) : Prop where
  error : ∃ cause, (failing.runBody t).outcome = .error cause
  panic : ∃ message, (panicking.runBody t).outcome = .panic message
  failing_scope : (failing.runBody t).session.context.scope = t.context.scope
  panicking_scope : (panicking.runBody t).session.context.scope = t.context.scope
  hosts : (failing.runBody t).session.context.hosts = (panicking.runBody t).session.context.hosts

/-- A request that fails and is not caught, and one that panics. -/
theorem FailsAlike.of_requests {t : Session σ} {r r' : Request σ} {handling handling' : Handling}
    {cause : EvalError} {message : String} (hc : handling.catches = false)
    (he : (t.answer r).1 = .error cause) (hp : (t.answer r').1 = .panic message)
    (hh : (t.answer r).2.context.hosts = (t.answer r').2.context.hosts) (rest rest' : Script σ) :
    FailsAlike t (.request r handling rest) (.request r' handling' rest') := by
  have hr : ∀ name value, r ≠ .set name value := by
    rintro name value rfl
    cases he
  have hr' : ∀ name value, r' ≠ .set name value := by
    rintro name value rfl
    cases hp
  have hs := t.answer_scope hr
  have hs' := t.answer_scope hr'
  constructor
  · exact ⟨cause, by simp [Script.runBody, Script.settle, he, hc]⟩
  · exact ⟨message, by simp [Script.runBody, Script.settle, hp]⟩
  · simpa [Script.runBody, Script.settle, he, hc] using hs
  · simpa [Script.runBody, Script.settle, hp] using hs'
  · simpa [Script.runBody, Script.settle, he, hc, hp] using hh

/-- A call comes to a script in it, and in the end the caller's scope has grown by the updates that
have landed there till then, and by nothing else. -/
def KeepsUpdates (s : Session σ) (entry : Entry) (times : Nat) (place : Position σ)
    (script : Script σ) (a : Arrival σ) : Prop :=
  let start := Moment.calling entry times (place.fill script) s
  ∃ n, start.after n = a.moment script ∧
    Scope.Grown (start.writes n) s.context.scope
      (s.call entry times (place.fill script).runBody).session.context.scope

theorem keepsUpdates_of_arrival {place : Position σ} {entry : Entry} {times : Nat} {s : Session σ}
    {a : Arrival σ} (ha : place.arrivalInCall? entry times s = some a) {script : Script σ}
    (ho : ∀ v, (script.runBody a.session).outcome ≠ .value v)
    (hs : (script.runBody a.session).session.context.scope = a.session.context.scope) :
    s.KeepsUpdates entry times place script a := by
  obtain ⟨n, hn⟩ := Moment.reaches_position_in_call ha script
  have hg := (Moment.calling entry times (place.fill script) s).grown_after n
  refine ⟨n, hn, ?_⟩
  rw [(call_of_arrival ha ho).2, Pending.unwind_scope a.pending hs]
  rw [hn] at hg
  exact hg

/-- Wherever in a tree of calls a step fails or panics without being caught, the outermost call ends
with the failure or the panic, and in both cases with the same scope, the same count of open calls
and the same objects. Both have kept exactly the updates before that step that have landed in the
caller's chain. -/
theorem errors_unwind_like_panics (s : Session σ) (entry : Entry) (times : Nat)
    (place : Position σ) {a : Arrival σ} (ha : place.arrivalInCall? entry times s = some a)
    {failing panicking : Script σ} (h : FailsAlike a.session failing panicking) :
    let failed := s.call entry times (place.fill failing).runBody
    let panicked := s.call entry times (place.fill panicking).runBody
    (∃ cause, failed.outcome = .error cause) ∧
      (∃ message, panicked.outcome = .panic message) ∧
      failed.session.context.scope = panicked.session.context.scope ∧
      failed.session.context.callDepth = panicked.session.context.callDepth ∧
      failed.session.context.hosts = panicked.session.context.hosts ∧
      s.KeepsUpdates entry times place failing a ∧
      s.KeepsUpdates entry times place panicking a := by
  intro failed panicked
  obtain ⟨cause, he⟩ := h.error
  obtain ⟨message, hp⟩ := h.panic
  have hev : ∀ v, (failing.runBody a.session).outcome ≠ .value v := by simp [he]
  have hpv : ∀ v, (panicking.runBody a.session).outcome ≠ .value v := by simp [hp]
  obtain ⟨hfo, hfc⟩ := call_of_arrival ha hev
  obtain ⟨hpo, hpc⟩ := call_of_arrival ha hpv
  have hscope : failed.session.context.scope = panicked.session.context.scope := by
    rw [hfc, hpc]
    exact Pending.unwind_scope a.pending (h.failing_scope.trans h.panicking_scope.symm)
  have hhosts : failed.session.context.hosts = panicked.session.context.hosts := by
    rw [hfc, hpc, Pending.unwind_hosts, Pending.unwind_hosts, h.hosts]
  have hdepth (script : Script σ) :
      (s.call entry times script.runBody).session.context.callDepth = s.context.callDepth :=
    (stable_balanced.call entry times _ (stable_balanced.runBody script) s).callDepth
  exact ⟨⟨cause, hfo.trans he⟩, ⟨message, hpo.trans hp⟩, hscope,
    (hdepth _).trans (hdepth _).symm, hhosts, keepsUpdates_of_arrival ha hev h.failing_scope,
    keepsUpdates_of_arrival ha hpv h.panicking_scope⟩

def ledgerCaller : Session StockHost where
  heap := ⟨1, 0⟩
  context := ⟨⟨.pair 0 .nil .nil⟩, {}, "ledger", 9, 0⟩

def ledgerEntry : Entry :=
  ⟨.current, .cons (.atom (.symbol "n")) .nil, .cons (.atom (.number 7)) .nil⟩

/-- Behind an update of an outer name, in a closure that has made an update of its own. -/
def ledgerPlace : Position StockHost :=
  .behindRequest (.set (.atom (.symbol "total")) (.atom (.number 1))) {} <|
  .behindRequest (.capture "env") {} <|
  .within ⟨.captured "env", .cons (.atom (.symbol "m")) .nil, .cons .nil .nil⟩ 1 none
    (.behindRequest (.set (.atom (.symbol "lost")) (.atom (.number 2))) {} .here) .done

def ledgerFailure : Script StockHost := .request (.fail .nil) {} .done

def ledgerPanic : Script StockHost := .request (.panic "no ledger") {} .done

theorem ledger_errors_unwind_like_panics :
    ∃ a, ledgerPlace.arrivalInCall? ledgerEntry 2 ledgerCaller = some a ∧
      FailsAlike a.session ledgerFailure ledgerPanic ∧
      let failed := ledgerCaller.call ledgerEntry 2 (ledgerPlace.fill ledgerFailure).runBody
      let panicked := ledgerCaller.call ledgerEntry 2 (ledgerPlace.fill ledgerPanic).runBody
      failed.session.context.scope = panicked.session.context.scope ∧
        failed.session.context.hosts = panicked.session.context.hosts ∧
        failed.session.context.scope.bindings =
          [[(.atom 2 (.symbol "total"), .atom 3 (.number 1))]] := by
  have hs : (ledgerPlace.arrivalInCall? ledgerEntry 2 ledgerCaller).isSome = true := by
    decide +kernel
  obtain ⟨a, ha⟩ := Option.isSome_iff_exists.mp hs
  have he : (a.session.answer (.fail .nil)).1 = .error (.failure .nil) := rfl
  have hp : (a.session.answer (.panic "no ledger")).1 = .panic "no ledger" := rfl
  have hf : FailsAlike a.session ledgerFailure ledgerPanic :=
    .of_requests rfl he hp rfl .done .done
  obtain ⟨-, -, hscope, -, hhosts, -, -⟩ :=
    errors_unwind_like_panics ledgerCaller ledgerEntry 2 ledgerPlace ha hf
  exact ⟨a, ha, hf, hscope, hhosts, by decide +kernel⟩

end Session

end LispContext
